import Mathlib.Data.List.Basic
import CoWq.Lib.Pool
import CoWq.IO.UsbDevice

/-!
# The accounts of the transfer pool

Every slot of a `transfer_pool` is in one place, and every awaiter is posted once.

* `State.pool`: the pool of slots with its line, as `Pool`; `Effect` is what a step does to it.
* `Place`, `At`: where a slot is.  Between its completion, or a failed `submit`, and its
  `release_slot` it is on its way back.
* `Lasting`: an awaiter is not destroyed before it is resumed.
* `Told`: what an awaiter has been told, by where its calls are; `Sound` is the invariant, and
  `Sound.step` goes through the steps.
* `Accounted`, `Sound.accounted`: the accounts of a state.
-/

namespace CoWq.UsbDevice

section

variable {A : Type*} {n : Nat}

/-! ## What is to hold -/

/-- Where a slot is, and the awaiter it is there for. -/
inductive Place (A : Type*)
  | free
  | reserved (a : A)
  | inFlight (a : A)
  | returning (a : A)
  deriving DecidableEq, Repr

def At (s : State A n) (slot : Fin n) : Place A → Prop
  | .free => slot ∈ s.freeSlots
  | .reserved a =>
      s.status slot = .reserved ∧ (s.pc a = .starting slot ∨ s.pc a = .submitting slot)
  | .inFlight a =>
      s.status slot = .inFlight ∧ s.owner slot = some a ∧ s.transfer slot = some a
  | .returning a =>
      (s.status slot = .completed ∨ s.status slot = .idle) ∧
        ((∃ completed result, s.pc a = .storing completed slot result) ∨ s.pc a = .posting slot ∨
          s.pc a = .releasing slot)

/-- An awaiter is not destroyed before it is resumed. -/
def Lasting (s : State A n) : Action A n → Prop
  | .cancel a => s.resumed a ≠ 0
  | _ => True

instance (s : State A n) (a : Action A n) : Decidable (Lasting s a) :=
  match a with
  | .cancel a => inferInstanceAs (Decidable (s.resumed a ≠ 0))
  | .awaitSuspend _ | .start _ | .submit _ _ | .storeFlag _ | .complete _ _ | .storeResult _
  | .postCompletion _ | .release _ | .resume _ | .destroy _ | .removeWaiter _ =>
    inferInstanceAs (Decidable True)

variable [DecidableEq A]

/-- The entries of a log for one awaiter. -/
def entriesOf {B : Type*} (log : List (A × B)) (a : A) : List B :=
  log.filterMap fun entry => if entry.1 = a then some entry.2 else none

/-- The accounts of a state. -/
structure Accounted (s : State A n) : Prop where
  place : ∀ slot, ∃! place, At s slot place
  line : s.waiters ≠ [] → s.freeSlots = []
  fifo : s.enqueued = s.dequeued ++ s.waiters
  posts : ∀ a, entriesOf s.posts a = [] ∨
    ∃ result, entriesOf s.posts a = [result] ∧ s.outcome a = some result
  releases : ∀ a, entriesOf s.releases a = [] ∨
    ∃ slot, entriesOf s.releases a = [slot] ∧ s.granted a = some slot ∧ entriesOf s.posts a ≠ []

/-! ## The pool -/

/-- The slot that the calls on an awaiter have. -/
def Pc.held : Pc n → Option (Fin n)
  | .starting slot | .submitting slot | .inFlight slot | .storing _ slot _ | .posting slot
  | .releasing slot => some slot
  | .fresh | .waiting | .returned => none

def State.pool (s : State A n) : Pool (Fin n) A where
  free := s.freeSlots
  line := s.waiters
  hold a := (s.pc a).held
  came := s.enqueued
  served := s.dequeued

/-- How many steps the calls on an awaiter have to go with their slot. -/
def Pc.left : Pc n → Nat
  | .starting _ => 6
  | .submitting _ => 5
  | .inFlight _ => 4
  | .storing _ _ _ => 3
  | .posting _ => 2
  | .releasing _ => 1
  | .fresh | .waiting | .returned => 0

/-- Who takes the steps: the calls on an awaiter, or libusb. -/
inductive Agent (A : Type*) (n : Nat)
  | calls (a : A)
  | libusb (slot : Fin n)
  deriving DecidableEq, Repr

def Agent.Takes : Agent A n → Action A n → Prop
  | .calls a, .start b | .calls a, .submit b _ | .calls a, .storeResult b
  | .calls a, .postCompletion b | .calls a, .release b => a = b
  | .libusb slot, .complete other _ => slot = other
  | _, _ => False

/-- Who moves an awaiter with a slot on. -/
def agent (s : State A n) (a : A) : Agent A n :=
  match s.pc a with
  | .inFlight slot => .libusb slot
  | _ => .calls a

/-- What a step does to the pool. -/
inductive Effect (s t : State A n) : Action A n → Prop
  | none {x : Action A n} (pc : t.pc = s.pc) (pool : t.pool = s.pool)
      (idle : ∀ a, (s.pc a).held ≠ none → ¬ (agent s a).Takes x) : Effect s t x
  | goesOn {x : Action A n} (a : A) (p : Pc n) (held : (s.pc a).held ≠ none)
      (same : p.held = (s.pc a).held) (fewer : p.left < (s.pc a).left)
      (pc : t.pc = Function.update s.pc a p) (pool : t.pool = s.pool)
      (takes : ∀ b, (s.pc b).held ≠ none → (agent s b).Takes x → b = a) : Effect s t x
  | acquire (a : A) (fresh : s.pc a = .fresh) (pool : t.pool = s.pool.acquire a)
      (pc : ∀ b, b ≠ a → t.pc b = s.pc b) : Effect s t (.awaitSuspend a)
  | release (a : A) (slot : Fin n) (last : s.pc a = .releasing slot)
      (pool : t.pool = s.pool.release a) (finished : t.pc a = .returned)
      (pc : ∀ b, b ≠ a → b ∉ s.waiters → t.pc b = s.pc b) : Effect s t (.release a)

/-! ## One awaiter -/

/-- The result of the awaiter is the answer of libusb. -/
def Pc.Stored : Pc n → Prop
  | .posting _ | .releasing _ | .returned => True
  | .fresh | .waiting | .starting _ | .submitting _ | .inFlight _ | .storing _ _ _ => False

/-- `post_completion` is through. -/
def Pc.Posted : Pc n → Prop
  | .releasing _ | .returned => True
  | .fresh | .waiting | .starting _ | .submitting _ | .inFlight _ | .storing _ _ _
  | .posting _ => False

instance (pc : Pc n) : Decidable pc.Posted :=
  match pc with
  | .releasing _ | .returned => .isTrue trivial
  | .fresh | .waiting | .starting _ | .submitting _ | .inFlight _ | .storing _ _ _
  | .posting _ => .isFalse id

/-- What an awaiter has been told, by where its calls are. -/
structure Told (s : State A n) (a : A) : Prop where
  granted : ∀ slot, (s.pc a).held = some slot → s.granted a = some slot
  ended : s.pc a = .returned → ∃ slot, s.granted a = some slot
  storing : ∀ completed slot result, s.pc a = .storing completed slot result →
    s.outcome a = some result
  stored : (s.pc a).Stored → s.outcome a = some (s.result a)
  posts : entriesOf s.posts a = if (s.pc a).Posted then [s.result a] else []
  releases : entriesOf s.releases a = if s.pc a = .returned then (s.granted a).toList else []
  pending : ¬ (s.pc a).Posted → s.queued a = 0 ∧ s.resumed a = 0
  cancelled : s.cancelled a = true → s.resumed a ≠ 0
  removing : s.removing a = false
  waiting : s.waiting a = true → s.pc a = .waiting
  listed : a ∈ s.waiters ↔ s.pc a = .waiting

/-- The awaiter is told nothing. -/
structure Untold (s t : State A n) (a : A) : Prop where
  granted : t.granted a = s.granted a
  posts : entriesOf t.posts a = entriesOf s.posts a
  releases : entriesOf t.releases a = entriesOf s.releases a
  queued : t.queued a = s.queued a
  resumed : t.resumed a = s.resumed a
  cancelled : t.cancelled a = s.cancelled a
  removing : t.removing a = s.removing a
  waiting : t.waiting a = s.waiting a
  listed : a ∈ t.waiters ↔ a ∈ s.waiters

/-- Nothing of the awaiter is changed. -/
structure Apart (s t : State A n) (a : A) : Prop extends Untold s t a where
  pc : t.pc a = s.pc a
  outcome : t.outcome a = s.outcome a
  result : t.result a = s.result a

variable {s t : State A n} {a b : A}

theorem Told.apart (told : Told s a) (apart : Apart s t a) : Told t a := by
  obtain ⟨⟨granted, posts, releases, queued, resumed, cancelled, removing, waiting, listed⟩, pc,
    outcome, result⟩ := apart
  constructor
  · rw [pc, granted]
    exact told.granted
  · rw [pc, granted]
    exact told.ended
  · rw [pc, outcome]
    exact told.storing
  · rw [pc, outcome, result]
    exact told.stored
  · simp only [pc, posts, result]
    exact told.posts
  · simp only [pc, releases, granted]
    exact told.releases
  · rw [pc, queued, resumed]
    exact told.pending
  · rw [cancelled, resumed]
    exact told.cancelled
  · exact removing.trans told.removing
  · rw [pc, waiting]
    exact told.waiting
  · rw [listed, pc]
    exact told.listed

/-- The calls on the awaiter go on before it is posted. -/
theorem Told.goesOn (told : Told s a) (untold : Untold s t a) {p : Pc n} (pc : t.pc a = p)
    (off : ¬ (s.pc a).Posted) (still : ¬ p.Posted) {slot : Fin n}
    (holds : (s.pc a).held = some slot) (same : p.held = some slot)
    (storing : ∀ completed slot result, p = .storing completed slot result →
      t.outcome a = some result)
    (stored : p.Stored → t.outcome a = some (t.result a)) : Told t a := by
  obtain ⟨granted, posts, releases, queued, resumed, cancelled, removing, waiting, listed⟩ := untold
  have going : s.pc a ≠ .returned ∧ s.pc a ≠ .waiting := by
    constructor <;> intro here <;> rw [here] at holds <;> cases holds
  have goes : p ≠ .returned ∧ p ≠ .waiting := by
    constructor <;> rintro rfl <;> cases same
  constructor
  · intro other held
    rw [pc, same] at held
    rw [granted, ← held]
    exact told.granted slot holds
  · exact fun finished => absurd (pc.symm.trans finished) goes.1
  · rw [pc]
    exact storing
  · rw [pc]
    exact stored
  · rw [posts, told.posts, if_neg off, pc, if_neg still]
  · rw [releases, told.releases, if_neg going.1, pc, if_neg goes.1]
  · intro _
    rw [queued, resumed]
    exact told.pending off
  · rw [cancelled, resumed]
    exact told.cancelled
  · exact removing.trans told.removing
  · intro waits
    exact absurd (told.waiting (waiting ▸ waits)) going.2
  · rw [listed, told.listed, pc]
    exact iff_of_false going.2 goes.2

/-- An awaiter whose calls go on is not about to be destroyed. -/
theorem Told.not_cancelled (told : Told s a) (off : ¬ (s.pc a).Posted) : s.cancelled a = false := by
  by_contra cancelled
  exact told.cancelled (Bool.eq_true_of_not_eq_false cancelled) (told.pending off).2

theorem Told.not_waiting (told : Told s a) (off : s.pc a ≠ .waiting) : s.waiting a = false := by
  by_contra waits
  exact off (told.waiting (Bool.eq_true_of_not_eq_false waits))

theorem entriesOf_append {B : Type*} (log : List (A × B)) (entry : B) :
    entriesOf (log ++ [(a, entry)]) a = entriesOf log a ++ [entry] := by
  simp [entriesOf]

theorem entriesOf_append_of_ne {B : Type*} (log : List (A × B)) (entry : B) (away : b ≠ a) :
    entriesOf (log ++ [(a, entry)]) b = entriesOf log b := by
  simp [entriesOf, away.symm]

/-- `post_completion` posts the awaiter with its result. -/
theorem Told.post (told : Told s a) {slot : Fin n} (here : s.pc a = .posting slot)
    (now : t.pc a = .releasing slot) (posts : t.posts = s.posts ++ [(a, s.result a)])
    (others : t.granted a = s.granted a ∧ t.outcome a = s.outcome a ∧ t.result a = s.result a ∧
      t.releases = s.releases ∧ t.resumed a = s.resumed a ∧ t.cancelled a = s.cancelled a ∧
      t.removing a = s.removing a ∧ t.waiting a = s.waiting a ∧
      (a ∈ t.waiters ↔ a ∈ s.waiters)) : Told t a := by
  obtain ⟨granted, outcome, result, releases, resumed, cancelled, removing, waiting, listed⟩ :=
    others
  have none : entriesOf s.posts a = [] := by
    rw [told.posts, here]
    rfl
  constructor
  · intro other held
    rw [now] at held
    cases held
    exact granted.trans (told.granted slot (by rw [here]; rfl))
  · simp [now]
  · simp [now]
  · intro _
    rw [outcome, result]
    exact told.stored (by rw [here]; trivial)
  · rw [posts, entriesOf_append, none, now, result]
    rfl
  · rw [releases, told.releases, here, now]
    rfl
  · exact fun off => absurd (by rw [now]; trivial) off
  · rw [cancelled, resumed]
    exact told.cancelled
  · exact removing.trans told.removing
  · intro waits
    rw [waiting, told.not_waiting (by simp [here])] at waits
    cases waits
  · rw [listed, told.listed, here, now]
    simp

/-- `release_slot` begins, and the calls on the awaiter are through. -/
theorem Told.finished (told : Told s a) {slot : Fin n} (here : s.pc a = .releasing slot)
    (now : t.pc a = .returned) (releases : t.releases = s.releases ++ [(a, slot)])
    (others : t.granted a = s.granted a ∧ t.outcome a = s.outcome a ∧ t.result a = s.result a ∧
      t.posts = s.posts ∧ t.resumed a = s.resumed a ∧ t.cancelled a = s.cancelled a ∧
      t.removing a = s.removing a ∧ t.waiting a = s.waiting a ∧
      (a ∈ t.waiters ↔ a ∈ s.waiters)) : Told t a := by
  obtain ⟨granted, outcome, result, posts, resumed, cancelled, removing, waiting, listed⟩ := others
  have got : s.granted a = some slot := told.granted slot (by rw [here]; rfl)
  have none : entriesOf s.releases a = [] := by
    rw [told.releases, here]
    rfl
  constructor
  · rw [now]
    nofun
  · exact fun _ => ⟨slot, granted.trans got⟩
  · simp [now]
  · intro _
    rw [outcome, result]
    exact told.stored (by rw [here]; trivial)
  · rw [posts, told.posts, here, now, result]
    rfl
  · rw [releases, entriesOf_append, none, now, granted, got]
    rfl
  · exact fun off => absurd (by rw [now]; trivial) off
  · rw [cancelled, resumed]
    exact told.cancelled
  · exact removing.trans told.removing
  · intro waits
    rw [waiting, told.not_waiting (by simp [here])] at waits
    cases waits
  · rw [listed, told.listed, here, now]
    simp

/-- A slot is handed to an awaiter that has begun or waits. -/
theorem Told.grant (told : Told s a) {slot : Fin n} (here : s.pc a = .fresh ∨ s.pc a = .waiting)
    (now : t.pc a = .starting slot) (granted : t.granted a = some slot)
    (waiting : t.waiting a = false) (unlisted : a ∉ t.waiters)
    (others : t.posts = s.posts ∧ entriesOf t.releases a = entriesOf s.releases a ∧
      t.queued a = s.queued a ∧ t.resumed a = s.resumed a ∧ t.cancelled a = s.cancelled a ∧
      t.removing a = s.removing a) : Told t a := by
  obtain ⟨posts, releases, queued, resumed, cancelled, removing⟩ := others
  have off : ¬ (s.pc a).Posted ∧ s.pc a ≠ .returned := by
    rcases here with here | here <;> rw [here] <;> exact ⟨id, by simp⟩
  constructor
  · intro other held
    rw [now] at held
    cases held
    exact granted
  · simp [now]
  · simp [now]
  · rw [now]
    exact False.elim
  · rw [posts, told.posts, if_neg off.1, now]
    rfl
  · rw [releases, told.releases, if_neg off.2, now]
    rfl
  · intro _
    rw [queued, resumed]
    exact told.pending off.1
  · rw [cancelled, resumed]
    exact told.cancelled
  · exact removing.trans told.removing
  · intro waits
    rw [waiting] at waits
    cases waits
  · rw [now]
    exact iff_of_false unlisted (by simp)

/-- An awaiter goes into `_waiting`. -/
theorem Told.wait (told : Told s a) (here : s.pc a = .fresh) (now : t.pc a = .waiting)
    (listed : a ∈ t.waiters)
    (others : t.posts = s.posts ∧ t.releases = s.releases ∧ t.queued a = s.queued a ∧
      t.resumed a = s.resumed a ∧ t.cancelled a = s.cancelled a ∧
      t.removing a = s.removing a) : Told t a := by
  obtain ⟨posts, releases, queued, resumed, cancelled, removing⟩ := others
  constructor
  · rw [now]
    nofun
  · simp [now]
  · simp [now]
  · rw [now]
    exact False.elim
  · rw [posts, told.posts, here, now]
    rfl
  · rw [releases, told.releases, here, now]
    rfl
  · intro _
    rw [queued, resumed]
    exact told.pending (by rw [here]; exact id)
  · rw [cancelled, resumed]
    exact told.cancelled
  · exact removing.trans told.removing
  · exact fun _ => now
  · exact iff_of_true listed now

theorem Told.init (start : init s) (a : A) : Told s a := by
  constructor <;>
    simp [start.pc, start.posts, start.releases, start.queued, start.resumed, start.cancelled,
      start.removing, start.waiting, start.waiters, entriesOf, Pc.held,
      Pc.Stored, Pc.Posted]

/-! ## The invariant -/

/-- The status of the slot that an awaiter has. -/
def Pc.Marks : Pc n → SlotState → Prop
  | .starting _, status | .submitting _, status => status = .reserved
  | .inFlight _, status => status = .inFlight
  | .storing _ _ _, status | .posting _, status | .releasing _, status =>
      status = .completed ∨ status = .idle
  | .fresh, _ | .waiting, _ | .returned, _ => True

/-- The owner of the slot that an awaiter has. -/
def Pc.owner (a : A) : Pc n → Option A
  | .inFlight _ => some a
  | _ => none

structure Marked (s : State A n) (pc : Pc n) (a : A) (slot : Fin n) : Prop where
  status : pc.Marks (s.status slot)
  owner : s.owner slot = pc.owner a
  transfer : s.transfer slot = pc.owner a

omit [DecidableEq A] in
theorem Marked.same {p : Pc n} {slot : Fin n} (marked : Marked s p a slot)
    (status : t.status slot = s.status slot) (owner : t.owner slot = s.owner slot)
    (transfer : t.transfer slot = s.transfer slot) : Marked t p a slot :=
  ⟨status ▸ marked.status, owner.trans marked.owner, transfer.trans marked.transfer⟩

structure Sound (s : State A n) : Prop where
  pool : s.pool.Sound
  held : ∀ a slot, (s.pc a).held = some slot → Marked s (s.pc a) a slot
  free : ∀ slot ∈ s.freeSlots, s.status slot = .idle ∧ s.owner slot = none ∧
    s.transfer slot = none
  told : ∀ a, Told s a

theorem Sound.init (start : init s) : Sound s where
  pool := by
    constructor <;> simp [State.pool, start.freeSlots, start.waiters, start.enqueued,
      start.dequeued, start.pc, Pc.held, List.nodup_finRange]
  held a slot holds := by
    rw [start.pc a] at holds
    cases holds
  free slot _ := ⟨start.status slot, start.owner slot, start.transfer slot⟩
  told := Told.init start

/-- libusb has a slot for its owner, and the owner is there. -/
theorem Sound.inFlight (sound : Sound s) {slot : Fin n} {sent : A}
    (given : s.transfer slot = some sent) :
    s.pc sent = .inFlight slot ∧ s.owner slot = some sent := by
  rcases sound.pool.covered slot with free | ⟨a, holds⟩
  · rw [(sound.free slot free).2.2] at given
    cases given
  · have marked := sound.held a slot holds
    have owned := marked.transfer.symm.trans given
    cases here : s.pc a with
    | inFlight other =>
        rw [here] at owned
        cases owned
        have holds : (s.pc sent).held = some slot := holds
        rw [here] at holds
        cases holds
        exact ⟨here, by rw [marked.owner, here]; rfl⟩
    | _ =>
        rw [here] at owned
        cases owned

theorem State.setPc_pc (s : State A n) (a : A) (p : Pc n) : (s.setPc a p).pc a = p :=
  Function.update_self ..

theorem State.setPc_pc_of_ne (s : State A n) (p : Pc n) (away : b ≠ a) :
    (s.setPc a p).pc b = s.pc b :=
  Function.update_of_ne away _ _

theorem held_update (pc : A → Pc n) (a : A) (p : Pc n) :
    (fun b => (Function.update pc a p b).held) = Function.update (fun b => (pc b).held) a p.held :=
  Function.comp_update Pc.held pc a p

theorem held_update_same {pc : A → Pc n} {p : Pc n} (same : p.held = (pc a).held) :
    (fun b => (Function.update pc a p b).held) = fun b => (pc b).held := by
  rw [held_update, same]
  exact Function.update_eq_self a _

theorem pool_goesOn {p : Pc n} (same : p.held = (s.pc a).held)
    (pc : t.pc = Function.update s.pc a p) (free : t.freeSlots = s.freeSlots)
    (waiters : t.waiters = s.waiters) (enqueued : t.enqueued = s.enqueued)
    (dequeued : t.dequeued = s.dequeued) : t.pool = s.pool := by
  simp only [State.pool, pc, held_update_same same, free, waiters, enqueued, dequeued]

theorem pool_acquireOrEnqueue (fresh : s.pc a = .fresh) :
    (acquireOrEnqueue s a).pool = s.pool.acquire a := by
  unfold acquireOrEnqueue Pool.acquire
  simp only [State.pool]
  cases s.freeSlots with
  | nil =>
      have same : Pc.held .waiting = (s.pc a).held := by
        rw [fresh]
        rfl
      simp only [State.setPc, held_update_same same]
  | cons slot free =>
      simp only [State.setPc, held_update]
      rfl

theorem pool_releaseSlot {slot : Fin n} (here : s.pc a = .releasing slot) :
    (releaseSlot (State.setPc { s.touch a with releases := s.releases ++ [(a, slot)] } a .returned)
      slot).pool = s.pool.release a := by
  have holds : s.pool.hold a = some slot := by
    show (s.pc a).held = some slot
    rw [here]
    rfl
  unfold Pool.release
  rw [holds]
  unfold releaseSlot
  simp only [State.setPc, State.touch, State.pool]
  cases s.waiters with
  | nil =>
      simp only [held_update]
      rfl
  | cons next rest =>
      simp only [held_update]
      rfl

omit [DecidableEq A] in
/-- The steps of the calls on an awaiter are taken by nobody else. -/
theorem eq_of_takes {x : Action A n} (ours : (Agent.calls a : Agent A n).Takes x)
    (takes : (agent s b).Takes x) : b = a := by
  unfold agent at takes
  split at takes
  · cases x <;> first | exact ours.elim | exact takes.elim
  · cases x with
    | start c | submit c rc | storeResult c | postCompletion c | release c =>
        exact takes.trans ours.symm
    | _ => exact ours.elim

omit [DecidableEq A] in
theorem Pc.left_pos {p : Pc n} {slot : Fin n} (held : p.held = some slot) : 0 < p.left := by
  cases p <;> first | exact Nat.succ_pos _ | cases held

omit [DecidableEq A] in
theorem Pc.left_le_one {p : Pc n} (posted : p.Posted) : p.left ≤ 1 := by
  cases p <;> first | exact posted.elim | simp [Pc.left]

/-! ## The steps -/

/-- The calls on an awaiter go on with its slot. -/
theorem Sound.goesOn (sound : Sound s) {slot : Fin n} {p : Pc n} {x : Action A n}
    (holds : (s.pc a).held = some slot) (same : p.held = some slot)
    (pc : t.pc = Function.update s.pc a p) (fewer : p.left < (s.pc a).left)
    (lists : t.freeSlots = s.freeSlots ∧ t.waiters = s.waiters ∧ t.enqueued = s.enqueued ∧
      t.dequeued = s.dequeued)
    (apart : ∀ b, b ≠ a → Apart s t b) (told : Told t a)
    (others : ∀ other, other ≠ slot → t.status other = s.status other ∧
      t.owner other = s.owner other ∧ t.transfer other = s.transfer other)
    (marked : Marked t p a slot)
    (takes : ∀ b, (s.pc b).held ≠ none → (agent s b).Takes x → b = a) :
    Sound t ∧ Effect s t x := by
  obtain ⟨free, waiters, enqueued, dequeued⟩ := lists
  have pool : t.pool = s.pool :=
    pool_goesOn (same.trans holds.symm) pc free waiters enqueued dequeued
  refine ⟨⟨pool ▸ sound.pool, ?_, ?_, ?_⟩, .goesOn a p ?_ (same.trans holds.symm) fewer pc pool
    takes⟩
  · intro b other held
    rcases eq_or_ne b a with rfl | away
    · rw [pc, Function.update_self] at held ⊢
      cases same.symm.trans held
      exact marked
    · rw [pc, Function.update_of_ne away] at held ⊢
      have elsewhere : other ≠ slot := by
        rintro rfl
        exact away (sound.pool.single other b a held holds)
      obtain ⟨status, owner, transfer⟩ := others other elsewhere
      exact (sound.held b other held).same status owner transfer
  · intro other listed
    rw [free] at listed
    have elsewhere : other ≠ slot := by
      rintro rfl
      exact sound.pool.apart other listed a holds
    obtain ⟨status, owner, transfer⟩ := others other elsewhere
    rw [status, owner, transfer]
    exact sound.free other listed
  · intro b
    rcases eq_or_ne b a with rfl | away
    · exact told
    · exact (sound.told b).apart (apart b away)
  · rw [holds]
    exact Option.some_ne_none slot

/-- The calls on an awaiter go on with its slot, and are not at their end. -/
theorem Sound.advance (sound : Sound s) {slot : Fin n} {p : Pc n} {x : Action A n}
    (holds : (s.pc a).held = some slot) (same : p.held = some slot)
    (pc : t.pc = Function.update s.pc a p) (untold : ∀ b, Untold s t b) (still : ¬ p.Posted)
    (fewer : p.left < (s.pc a).left) (lists : t.freeSlots = s.freeSlots ∧
      t.waiters = s.waiters ∧ t.enqueued = s.enqueued ∧ t.dequeued = s.dequeued)
    (away : ∀ b, b ≠ a → t.outcome b = s.outcome b ∧ t.result b = s.result b)
    (storing : ∀ completed slot result, p = .storing completed slot result →
      t.outcome a = some result)
    (stored : p.Stored → t.outcome a = some (t.result a))
    (others : ∀ other, other ≠ slot → t.status other = s.status other ∧
      t.owner other = s.owner other ∧ t.transfer other = s.transfer other)
    (marked : Marked t p a slot)
    (takes : ∀ b, (s.pc b).held ≠ none → (agent s b).Takes x → b = a) :
    Sound t ∧ Effect s t x := by
  have off : ¬ (s.pc a).Posted := by
    intro posted
    have last := Pc.left_le_one posted
    have more : 0 < p.left := Pc.left_pos same
    omega
  apply sound.goesOn holds same pc fewer lists _ _ others marked takes
  · intro b apart
    obtain ⟨outcome, result⟩ := away b apart
    exact ⟨untold b, by rw [pc, Function.update_of_ne apart], outcome, result⟩
  · exact (sound.told a).goesOn (untold a) (by rw [pc, Function.update_self]) off still holds same
      storing stored

theorem Sound.start (sound : Sound s) (run : step s (.start a) = some t) :
    Sound t ∧ Effect s t (.start a) := by
  have told := sound.told a
  simp only [step] at run
  split at run
  next slot here =>
    have alive : s.cancelled a = false := told.not_cancelled (by simp [here, Pc.Posted])
    have holds : (s.pc a).held = some slot := by rw [here]; rfl
    have marked := sound.held a slot holds
    rw [here] at marked
    rw [show (s.touch a).cancelled a = false from alive, if_neg Bool.false_ne_true] at run
    cases run
    refine sound.advance holds rfl rfl
      (fun _ => ⟨rfl, rfl, rfl, rfl, rfl, rfl, rfl, rfl, Iff.rfl⟩) id ?_ ⟨rfl, rfl, rfl, rfl⟩
      (fun _ _ => ⟨rfl, rfl⟩) (by simp) False.elim (fun _ _ => ⟨rfl, rfl, rfl⟩) ?_ ?_
    · simp [here, Pc.left]
    · exact ⟨marked.status, marked.owner, marked.transfer⟩
    · exact fun b _ takes => eq_of_takes (a := a) (x := .start a) rfl takes
  next => cases run

theorem Sound.submit (sound : Sound s) {rc : Int} (run : step s (.submit a rc) = some t) :
    Sound t ∧ Effect s t (.submit a rc) := by
  simp only [step] at run
  split at run
  next slot here =>
    have holds : (s.pc a).held = some slot := by rw [here]; rfl
    have marked := sound.held a slot holds
    rw [here] at marked
    have takes : ∀ b, (s.pc b).held ≠ none → (agent s b).Takes (.submit a rc) → b = a :=
      fun b _ takes => eq_of_takes (a := a) (x := .submit a rc) rfl takes
    split at run <;> cases run
    · refine sound.advance holds rfl rfl
        (fun _ => ⟨rfl, rfl, rfl, rfl, rfl, rfl, rfl, rfl, Iff.rfl⟩) id ?_ ⟨rfl, rfl, rfl, rfl⟩
        (fun b away => ⟨Function.update_of_ne away _ _, rfl⟩) ?_ False.elim ?_ ?_ takes
      · simp [here, Pc.left]
      · intro completed other result same
        cases same
        exact Function.update_self ..
      · exact fun other apart =>
          ⟨Function.update_of_ne apart _ _, Function.update_of_ne apart _ _, rfl⟩
      · exact ⟨.inr (Function.update_self ..), Function.update_self .., marked.transfer⟩
    · refine sound.advance holds rfl rfl
        (fun _ => ⟨rfl, rfl, rfl, rfl, rfl, rfl, rfl, rfl, Iff.rfl⟩) id ?_ ⟨rfl, rfl, rfl, rfl⟩
        (fun _ _ => ⟨rfl, rfl⟩) (by simp) False.elim ?_ ?_ takes
      · simp [here, Pc.left]
      · exact fun other apart => ⟨Function.update_of_ne apart _ _,
          Function.update_of_ne apart _ _, Function.update_of_ne apart _ _⟩
      · exact ⟨Function.update_self .., Function.update_self .., Function.update_self ..⟩
  next => cases run

theorem Sound.complete (sound : Sound s) {slot : Fin n} {status : TransferStatus}
    (run : step s (.complete slot status) = some t) :
    Sound t ∧ Effect s t (.complete slot status) := by
  simp only [step] at run
  split at run
  next sent given =>
    obtain ⟨here, owned⟩ := sound.inFlight given
    have holds : (s.pc sent).held = some slot := by rw [here]; rfl
    rw [owned] at run
    cases run
    refine sound.advance holds rfl rfl
      (fun _ => ⟨rfl, rfl, rfl, rfl, rfl, rfl, rfl, rfl, Iff.rfl⟩) id ?_ ⟨rfl, rfl, rfl, rfl⟩
      (fun b away => ⟨Function.update_of_ne away _ _, rfl⟩) ?_ False.elim ?_ ?_ ?_
    · simp [here, Pc.left]
    · intro completed other result same
      cases same
      exact Function.update_self ..
    · exact fun other apart => ⟨Function.update_of_ne apart _ _,
        Function.update_of_ne apart _ _, Function.update_of_ne apart _ _⟩
    · exact ⟨.inl (Function.update_self ..), Function.update_self .., Function.update_self ..⟩
    · intro b _ takes
      unfold agent at takes
      split at takes
      next other there =>
        have same : other = slot := takes
        apply sound.pool.single slot b sent _ holds
        show (s.pc b).held = some slot
        rw [there, same]
        rfl
      next => exact takes.elim
  next => cases run

theorem Sound.storeResult (sound : Sound s) (run : step s (.storeResult a) = some t) :
    Sound t ∧ Effect s t (.storeResult a) := by
  simp only [step] at run
  split at run
  next completed slot result here =>
    have holds : (s.pc a).held = some slot := by rw [here]; rfl
    have marked := sound.held a slot holds
    rw [here] at marked
    cases run
    refine sound.advance holds rfl rfl
      (fun _ => ⟨rfl, rfl, rfl, rfl, rfl, rfl, rfl, rfl, Iff.rfl⟩) id ?_ ⟨rfl, rfl, rfl, rfl⟩
      (fun b away => ⟨rfl, Function.update_of_ne away _ _⟩) (by simp) ?_
      (fun _ _ => ⟨rfl, rfl, rfl⟩) ?_ ?_
    · simp [here, Pc.left]
    · intro _
      have answer := (sound.told a).storing completed slot result here
      have kept : Function.update s.result a result a = result := Function.update_self ..
      exact answer.trans (congrArg some kept.symm)
    · exact ⟨marked.status, marked.owner, marked.transfer⟩
    · exact fun b _ takes => eq_of_takes (a := a) (x := .storeResult a) rfl takes
  next => cases run

theorem Sound.postCompletion (sound : Sound s) (run : step s (.postCompletion a) = some t) :
    Sound t ∧ Effect s t (.postCompletion a) := by
  have told := sound.told a
  simp only [step] at run
  split at run
  next slot here =>
    have off : ¬ (s.pc a).Posted := by simp [here, Pc.Posted]
    have holds : (s.pc a).held = some slot := by rw [here]; rfl
    have marked := sound.held a slot holds
    rw [here] at marked
    rw [show (s.touch a).cancelled a = false from told.not_cancelled off,
      if_neg Bool.false_ne_true] at run
    cases run
    refine sound.goesOn holds rfl rfl ?_ ⟨rfl, rfl, rfl, rfl⟩ ?_ ?_ (fun _ _ => ⟨rfl, rfl, rfl⟩)
      ⟨marked.status, marked.owner, marked.transfer⟩
      fun b _ takes => eq_of_takes (a := a) (x := .postCompletion a) rfl takes
    · simp [here, Pc.left]
    · intro b away
      exact ⟨⟨rfl, entriesOf_append_of_ne _ _ away, rfl, Function.update_of_ne away _ _, rfl, rfl,
        rfl, rfl, Iff.rfl⟩, Function.update_of_ne away _ _, rfl, rfl⟩
    · exact told.post here (Function.update_self ..) rfl
        ⟨rfl, rfl, rfl, rfl, rfl, rfl, rfl, rfl, Iff.rfl⟩
  next => cases run

/-- A free slot is reserved for the awaiter. -/
theorem Sound.reserve (sound : Sound s) {slot : Fin n} {free : List (Fin n)}
    (found : s.freeSlots = slot :: free) (fresh : s.pc a = .fresh)
    (pool : (acquireOrEnqueue s a).pool.Sound) : Sound (acquireOrEnqueue s a) := by
  have reserved : acquireOrEnqueue s a =
      State.setPc
        { s with
          freeSlots := free
          status := Function.update s.status slot .reserved
          granted := Function.update s.granted a (some slot) } a (.starting slot) := by
    unfold acquireOrEnqueue
    rw [found]
  rw [reserved] at pool ⊢
  have told := sound.told a
  have mine : slot ∈ s.freeSlots := found ▸ List.mem_cons_self
  obtain ⟨-, owner, transfer⟩ := sound.free slot mine
  refine ⟨pool, ?_, ?_, ?_⟩
  · intro b other held
    rcases eq_or_ne b a with rfl | away
    · rw [State.setPc_pc] at held ⊢
      cases held
      exact ⟨Function.update_self .., owner, transfer⟩
    · rw [State.setPc_pc_of_ne _ _ away] at held ⊢
      have before := sound.held b other held
      have apart : other ≠ slot := by
        rintro rfl
        exact sound.pool.apart other mine b held
      exact before.same (Function.update_of_ne apart _ _) rfl rfl
  · have nodup := sound.pool.nodup
    rw [show s.pool.free = slot :: free from found] at nodup
    intro other listed
    have apart : other ≠ slot := by
      rintro rfl
      exact (List.nodup_cons.mp nodup).1 listed
    obtain ⟨status, owner, transfer⟩ := sound.free other (found ▸ List.mem_cons_of_mem _ listed)
    exact ⟨(Function.update_of_ne apart _ _).trans status, owner, transfer⟩
  · have unlisted : a ∉ s.waiters := by
      rw [told.listed, fresh]
      simp
    intro b
    rcases eq_or_ne b a with rfl | away
    · exact told.grant (.inl fresh) (Function.update_self ..) (Function.update_self ..)
        (told.not_waiting (by simp [fresh])) unlisted ⟨rfl, rfl, rfl, rfl, rfl, rfl⟩
    · exact (sound.told b).apart ⟨⟨Function.update_of_ne away _ _, rfl, rfl, rfl, rfl, rfl, rfl,
        rfl, Iff.rfl⟩, Function.update_of_ne away _ _, rfl, rfl⟩

/-- Without a free slot the awaiter goes into `_waiting`. -/
theorem Sound.enqueue (sound : Sound s) (none : s.freeSlots = []) (fresh : s.pc a = .fresh)
    (pool : (acquireOrEnqueue s a).pool.Sound) : Sound (acquireOrEnqueue s a) := by
  have enqueued : acquireOrEnqueue s a =
      State.setPc
        { s with
          waiters := s.waiters ++ [a]
          waiting := Function.update s.waiting a true
          enqueued := s.enqueued ++ [a] } a .waiting := by
    unfold acquireOrEnqueue
    rw [none]
  rw [enqueued] at pool ⊢
  refine ⟨pool, ?_, fun other listed => sound.free other listed, ?_⟩
  · intro b other held
    have away : b ≠ a := by
      rintro rfl
      rw [State.setPc_pc] at held
      cases held
    rw [State.setPc_pc_of_ne _ _ away] at held ⊢
    exact (sound.held b other held).same rfl rfl rfl
  · intro b
    rcases eq_or_ne b a with rfl | away
    · exact (sound.told b).wait fresh (Function.update_self ..)
        (List.mem_append_right _ (List.mem_singleton.mpr rfl)) ⟨rfl, rfl, rfl, rfl, rfl, rfl⟩
    · refine (sound.told b).apart ⟨⟨rfl, rfl, rfl, rfl, rfl, rfl, rfl,
        Function.update_of_ne away _ _, ?_⟩, Function.update_of_ne away _ _, rfl, rfl⟩
      simp [State.setPc, away]

theorem Sound.awaitSuspend (sound : Sound s) (run : step s (.awaitSuspend a) = some t) :
    Sound t ∧ Effect s t (.awaitSuspend a) := by
  obtain ⟨⟨fresh, begins⟩, run⟩ := Option.ite_none_right_eq_some.mp run
  cases run
  have idle : s.pool.hold a = none := by
    show (s.pc a).held = none
    rw [fresh]
    rfl
  have unlisted : a ∉ s.waiters := by
    rw [(sound.told a).listed, fresh]
    simp
  have pool := pool_acquireOrEnqueue fresh
  have after : (acquireOrEnqueue s a).pool.Sound := pool ▸ sound.pool.acquire idle unlisted
  constructor
  · cases found : s.freeSlots with
    | nil => exact sound.enqueue found fresh after
    | cons slot free => exact sound.reserve found fresh after
  · apply Effect.acquire a fresh pool
    intro b away
    unfold acquireOrEnqueue
    split <;> exact Function.update_of_ne away _ _

/-- `release_slot` begins: the slot is in nobody's hands. -/
structure Loose (s : State A n) (slot : Fin n) : Prop where
  held : ∀ a other, (s.pc a).held = some other → other ≠ slot ∧ Marked s (s.pc a) a other
  free : ∀ other ∈ s.freeSlots, other ≠ slot ∧ s.status other = .idle ∧ s.owner other = none ∧
    s.transfer other = none
  owner : s.owner slot = none
  transfer : s.transfer slot = none
  told : ∀ a, Told s a
  lined : s.waiters.Nodup
  busy : s.waiters ≠ [] → s.freeSlots = []

theorem Sound.loose (sound : Sound s) {slot : Fin n} (here : s.pc a = .releasing slot) :
    Loose (State.setPc { s.touch a with releases := s.releases ++ [(a, slot)] } a .returned)
      slot := by
  have holds : (s.pc a).held = some slot := by
    rw [here]
    rfl
  have marked := sound.held a slot holds
  rw [here] at marked
  refine ⟨?_, ?_, marked.owner, marked.transfer, ?_, sound.pool.lined, sound.pool.busy⟩
  · intro b other held
    have away : b ≠ a := by
      rintro rfl
      rw [State.setPc_pc] at held
      cases held
    rw [State.setPc_pc_of_ne _ _ away] at held ⊢
    refine ⟨?_, (sound.held b other held).same rfl rfl rfl⟩
    rintro rfl
    exact away (sound.pool.single other b a held holds)
  · intro other listed
    refine ⟨?_, sound.free other listed⟩
    rintro rfl
    exact sound.pool.apart other listed a holds
  · intro b
    rcases eq_or_ne b a with rfl | away
    · exact (sound.told b).finished here (Function.update_self ..) rfl
        ⟨rfl, rfl, rfl, rfl, rfl, rfl, rfl, rfl, Iff.rfl⟩
    · exact (sound.told b).apart ⟨⟨rfl, rfl, entriesOf_append_of_ne _ _ away, rfl, rfl, rfl, rfl,
        rfl, Iff.rfl⟩, Function.update_of_ne away _ _, rfl, rfl⟩

/-- The slot goes to the first waiter, or to the free ones. -/
theorem Loose.releaseSlot {slot : Fin n} (loose : Loose s slot)
    (pool : (releaseSlot s slot).pool.Sound) : Sound (releaseSlot s slot) := by
  refine ⟨pool, ?_, ?_, ?_⟩
  all_goals
    unfold UsbDevice.releaseSlot
    split
  next next rest line =>
    intro b other held
    rcases eq_or_ne b next with rfl | away
    · rw [State.setPc_pc] at held ⊢
      cases held
      exact ⟨Function.update_self .., loose.owner, loose.transfer⟩
    · rw [State.setPc_pc_of_ne _ _ away] at held ⊢
      obtain ⟨apart, marked⟩ := loose.held b other held
      exact marked.same (Function.update_of_ne apart _ _) rfl rfl
  next =>
    intro b other held
    obtain ⟨apart, marked⟩ := loose.held b other held
    exact marked.same (Function.update_of_ne apart _ _) rfl rfl
  next next rest line =>
    intro other listed
    have none : s.freeSlots = [] := loose.busy (by rw [line]; exact List.cons_ne_nil _ _)
    have listed : other ∈ s.freeSlots := listed
    rw [none] at listed
    cases listed
  next =>
    intro other listed
    rcases List.mem_append.mp listed with listed | last
    · obtain ⟨apart, status, owner, transfer⟩ := loose.free other listed
      exact ⟨(Function.update_of_ne apart _ _).trans status, owner, transfer⟩
    · rw [List.mem_singleton.mp last]
      exact ⟨Function.update_self .., loose.owner, loose.transfer⟩
  next next rest line =>
    have lined := loose.lined
    rw [line] at lined
    obtain ⟨gone, -⟩ := List.nodup_cons.mp lined
    intro b
    rcases eq_or_ne b next with rfl | away
    · have waits := (loose.told b).listed.mp (line ▸ List.mem_cons_self)
      exact (loose.told b).grant (.inr waits) (Function.update_self ..) (Function.update_self ..)
        (Function.update_self ..) gone ⟨rfl, rfl, rfl, rfl, rfl, rfl⟩
    · refine (loose.told b).apart ⟨⟨Function.update_of_ne away _ _, rfl, rfl, rfl, rfl, rfl, rfl,
        Function.update_of_ne away _ _, ?_⟩, Function.update_of_ne away _ _, rfl, rfl⟩
      rw [line]
      simp [State.setPc, away]
  next =>
    intro b
    exact (loose.told b).apart ⟨⟨rfl, rfl, rfl, rfl, rfl, rfl, rfl, rfl, Iff.rfl⟩, rfl, rfl, rfl⟩

theorem Sound.release (sound : Sound s) (run : step s (.release a) = some t) :
    Sound t ∧ Effect s t (.release a) := by
  simp only [step] at run
  split at run
  next slot here =>
    cases run
    have holds : s.pool.hold a = some slot := by
      show (s.pc a).held = some slot
      rw [here]
      rfl
    have pool := pool_releaseSlot here
    refine ⟨(sound.loose here).releaseSlot (pool ▸ sound.pool.release holds),
      .release a slot here pool ?_ ?_⟩
    · have unlisted : a ∉ s.waiters := by
        rw [(sound.told a).listed, here]
        simp
      unfold releaseSlot
      split
      next next rest line =>
        have apart : a ≠ next := by
          rintro rfl
          exact unlisted (show a ∈ s.waiters from line ▸ List.mem_cons_self)
        rw [State.setPc_pc_of_ne _ _ apart]
        exact Function.update_self ..
      next => exact Function.update_self ..
    intro b away unlisted
    unfold releaseSlot
    split
    next next rest line =>
      have apart : b ≠ next := by
        rintro rfl
        exact unlisted (show b ∈ s.waiters from line ▸ List.mem_cons_self)
      rw [State.setPc_pc_of_ne _ _ apart]
      exact Function.update_of_ne away _ _
    next => exact Function.update_of_ne away _ _
  next => cases run

/-- A step that leaves the slots and the calls as they are. -/
theorem Sound.still (sound : Sound s) {x : Action A n} (pc : t.pc = s.pc) (pool : t.pool = s.pool)
    (slots : t.status = s.status ∧ t.owner = s.owner ∧ t.transfer = s.transfer)
    (told : ∀ a, Told t a) (idle : ∀ a, ¬ (agent s a).Takes x) : Sound t ∧ Effect s t x := by
  obtain ⟨status, owner, transfer⟩ := slots
  refine ⟨⟨pool ▸ sound.pool, ?_, ?_, told⟩, .none pc pool fun a _ => idle a⟩
  · intro a slot held
    rw [pc] at held ⊢
    exact (sound.held a slot held).same (congrFun status slot) (congrFun owner slot)
      (congrFun transfer slot)
  · intro slot listed
    rw [status, owner, transfer]
    apply sound.free slot
    rw [show s.freeSlots = t.freeSlots from (congrArg Pool.free pool).symm]
    exact listed

theorem Sound.storeFlag (sound : Sound s) (run : step s (.storeFlag a) = some t) :
    Sound t ∧ Effect s t (.storeFlag a) := by
  obtain ⟨-, run⟩ := Option.ite_none_right_eq_some.mp run
  cases run
  refine sound.still rfl rfl ⟨rfl, rfl, rfl⟩ ?_ ?_
  · intro b
    exact (sound.told b).apart ⟨⟨rfl, rfl, rfl, rfl, rfl, rfl, rfl, rfl, Iff.rfl⟩, rfl, rfl, rfl⟩
  · intro b
    unfold agent
    split <;> exact id

theorem Sound.resume (sound : Sound s) (run : step s (.resume a) = some t) :
    Sound t ∧ Effect s t (.resume a) := by
  obtain ⟨queued, run⟩ := Option.ite_none_right_eq_some.mp run
  cases run
  have posted : (s.pc a).Posted := by
    by_contra off
    rw [((sound.told a).pending off).1] at queued
    exact absurd queued (lt_irrefl 0)
  refine sound.still rfl rfl ⟨rfl, rfl, rfl⟩ ?_ ?_
  · intro b
    have told := sound.told b
    rcases eq_or_ne b a with rfl | away
    · refine ⟨told.granted, told.ended, told.storing, told.stored, told.posts, told.releases,
        fun off => absurd posted off, ?_, told.removing, told.waiting, told.listed⟩
      intro cancelled
      have before := told.cancelled cancelled
      simp only [show s.cancelled b = true from cancelled, if_true]
      exact before
    · refine told.apart ⟨⟨rfl, rfl, rfl, Function.update_of_ne away _ _, ?_, rfl, rfl, rfl,
        Iff.rfl⟩, rfl, rfl, rfl⟩
      show (if s.cancelled a then s.resumed else _) b = _
      split
      · rfl
      · exact Function.update_of_ne away _ _
  · intro b
    unfold agent
    split <;> exact id

/-- The destructor begins behind the resume. -/
theorem Sound.cancel (sound : Sound s) (lasting : Lasting s (.cancel a))
    (run : step s (.cancel a) = some t) : Sound t ∧ Effect s t (.cancel a) := by
  obtain ⟨-, run⟩ := Option.ite_none_right_eq_some.mp run
  cases run
  refine sound.still rfl rfl ⟨rfl, rfl, rfl⟩ ?_ ?_
  · intro b
    have told := sound.told b
    rcases eq_or_ne b a with rfl | away
    · exact ⟨told.granted, told.ended, told.storing, told.stored, told.posts, told.releases,
        told.pending, fun _ => lasting, told.removing, told.waiting, told.listed⟩
    · exact told.apart ⟨⟨rfl, rfl, rfl, rfl, rfl, Function.update_of_ne away _ _, rfl, rfl,
        Iff.rfl⟩, rfl, rfl, rfl⟩
  · intro b
    unfold agent
    split <;> exact id

/-- The awaiter does not wait where its destructor is. -/
theorem Sound.destroy (sound : Sound s) (run : step s (.destroy a) = some t) :
    Sound t ∧ Effect s t (.destroy a) := by
  obtain ⟨⟨cancelled, -, -⟩, run⟩ := Option.ite_none_right_eq_some.mp run
  cases run
  have told := sound.told a
  have through : s.waiting a = false := by
    by_contra waits
    have here := told.waiting (Bool.eq_true_of_not_eq_false waits)
    exact told.cancelled cancelled (told.pending (by rw [here]; exact id)).2
  unfold UsbDevice.destroy
  rw [if_neg (by simp [through])]
  refine sound.still rfl rfl ⟨rfl, rfl, rfl⟩ ?_ ?_
  · intro b
    refine (sound.told b).apart ⟨⟨rfl, rfl, rfl, rfl, rfl, rfl, ?_, rfl, Iff.rfl⟩, rfl, rfl, rfl⟩
    rcases eq_or_ne b a with rfl | away
    · exact (Function.update_self ..).trans told.removing.symm
    · exact Function.update_of_ne away _ _
  · intro b
    unfold agent
    split <;> exact id

theorem Sound.step {x : Action A n} (sound : Sound s) (lasting : Lasting s x)
    (run : step s x = some t) : Sound t ∧ Effect s t x := by
  cases x with
  | awaitSuspend a => exact sound.awaitSuspend run
  | start a => exact sound.start run
  | submit a rc => exact sound.submit run
  | storeFlag a => exact sound.storeFlag run
  | complete slot status => exact sound.complete run
  | storeResult a => exact sound.storeResult run
  | postCompletion a => exact sound.postCompletion run
  | release a => exact sound.release run
  | resume a => exact sound.resume run
  | cancel a => exact sound.cancel lasting run
  | destroy a => exact sound.destroy run
  | removeWaiter a =>
      obtain ⟨removing, -⟩ := Option.ite_none_right_eq_some.mp run
      rw [(sound.told a).removing] at removing
      cases removing

theorem Sound.via (reach : (usbDevice A n).Via Lasting s) : Sound s :=
  reach.invariant (fun _ start => Sound.init start) fun _ _ _ sound lasting run =>
    (Sound.step sound lasting run).1

/-! ## The accounts -/

/-- Where the slot of an awaiter is. -/
def Pc.place (a : A) : Pc n → Place A
  | .starting _ | .submitting _ => .reserved a
  | .inFlight _ => .inFlight a
  | .storing _ _ _ | .posting _ | .releasing _ => .returning a
  | .fresh | .waiting | .returned => .free

/-- A slot is on the free list or where the awaiter is that has it. -/
theorem Sound.holder_of_at (sound : Sound s) {slot : Fin n} {place : Place A}
    (here : At s slot place) :
    place = .free ∧ slot ∈ s.freeSlots ∨
      ∃ a, (s.pc a).held = some slot ∧ place = (s.pc a).place a := by
  cases place with
  | free => exact .inl ⟨rfl, here⟩
  | reserved a =>
      right
      rcases here.2 with there | there <;> exact ⟨a, by rw [there]; rfl, by rw [there]; rfl⟩
  | inFlight a =>
      right
      have there := (sound.inFlight here.2.2).1
      exact ⟨a, by rw [there]; rfl, by rw [there]; rfl⟩
  | returning a =>
      right
      rcases here.2 with ⟨completed, result, there⟩ | there | there <;>
        exact ⟨a, by rw [there]; rfl, by rw [there]; rfl⟩

theorem Sound.at_place (sound : Sound s) {slot : Fin n} (holds : (s.pc a).held = some slot) :
    At s slot ((s.pc a).place a) := by
  obtain ⟨status, owner, transfer⟩ := sound.held a slot holds
  cases here : s.pc a with
  | fresh | waiting | returned =>
      rw [here] at holds
      cases holds
  | starting other =>
      rw [here] at holds status
      cases holds
      exact ⟨status, .inl here⟩
  | submitting other =>
      rw [here] at holds status
      cases holds
      exact ⟨status, .inr here⟩
  | inFlight other =>
      rw [here] at status owner transfer
      exact ⟨status, owner, transfer⟩
  | storing completed other result =>
      rw [here] at holds status
      cases holds
      exact ⟨status, .inl ⟨completed, result, here⟩⟩
  | posting other =>
      rw [here] at holds status
      cases holds
      exact ⟨status, .inr (.inl here)⟩
  | releasing other =>
      rw [here] at holds status
      cases holds
      exact ⟨status, .inr (.inr here)⟩

/-- A slot is in one place. -/
theorem Sound.place (sound : Sound s) (slot : Fin n) : ∃! place, At s slot place := by
  rcases sound.pool.covered slot with free | ⟨a, holds⟩
  · refine ⟨.free, free, ?_⟩
    intro place here
    rcases sound.holder_of_at here with ⟨same, -⟩ | ⟨a, holds, -⟩
    · exact same
    · exact absurd holds (sound.pool.apart slot free a)
  · refine ⟨(s.pc a).place a, sound.at_place holds, ?_⟩
    intro place here
    rcases sound.holder_of_at here with ⟨-, free⟩ | ⟨b, other, same⟩
    · exact absurd holds (sound.pool.apart slot free a)
    · rw [same, sound.pool.single slot b a other holds]

theorem Sound.accounted (sound : Sound s) : Accounted s where
  place := sound.place
  line := sound.pool.busy
  fifo := sound.pool.order
  posts a := by
    have told := sound.told a
    by_cases posted : (s.pc a).Posted
    · right
      have stored : (s.pc a).Stored := by
        cases here : s.pc a <;> rw [here] at posted <;> first | exact posted.elim | trivial
      exact ⟨s.result a, told.posts.trans (if_pos posted), told.stored stored⟩
    · exact .inl (told.posts.trans (if_neg posted))
  releases a := by
    have told := sound.told a
    by_cases finished : s.pc a = .returned
    · right
      obtain ⟨slot, granted⟩ := told.ended finished
      refine ⟨slot, ?_, granted, ?_⟩
      · rw [told.releases, if_pos finished, granted]
        rfl
      · rw [told.posts, if_pos (by rw [finished]; trivial)]
        exact List.cons_ne_nil _ _
    · exact .inl (told.releases.trans (if_neg finished))

end

end CoWq.UsbDevice
