import Mathlib.Data.Fin.Basic
import Mathlib.Data.Fintype.Basic
import Mathlib.Data.List.Nodup
import CoWq.Lib.Machine

/-!
# The bulk transfers of a USB device

`transfer_pool` with its slots, and the awaiters that share them.  The calls on an awaiter come
from the coroutine that awaits it, from the event thread of libusb, and from the `release_slot` of
another awaiter; each of their steps is a step of the machine.

* `acquireOrEnqueue`, `releaseSlot`: the critical sections of the pool.
* `Action`, `step`, `usbDevice`: the machine.  `misuse` lists the awaiters that were read or
  written behind their destructor.
* `Settled`: the destructor of an awaiter goes on when no slot has it as its owner and every call
  on it is through.
* `untouched_of_settled`: in the runs of settled steps no dead awaiter is touched or owns a slot.
* `unsafe_of_used`, `released_through_dead`: other runs.
-/

namespace CoWq.UsbDevice

/-! ## The machine -/

def LIBUSB_ERROR_IO : Int := -1
def LIBUSB_ERROR_NO_DEVICE : Int := -4
def LIBUSB_ERROR_TIMEOUT : Int := -7
def LIBUSB_ERROR_OVERFLOW : Int := -8
def LIBUSB_ERROR_PIPE : Int := -9
def LIBUSB_ERROR_INTERRUPTED : Int := -10
def LIBUSB_ERROR_OTHER : Int := -99

/-- `transfer.status`, and `actual_length` of one that is completed. -/
inductive TransferStatus
  | completed (actualLength : Nat)
  | timedOut
  | stall
  | noDevice
  | overflow
  | cancelled
  | error
  deriving DecidableEq, Repr

/-- `translate_status` -/
def translateStatus : TransferStatus → Int
  | .completed actualLength => actualLength
  | .timedOut => LIBUSB_ERROR_TIMEOUT
  | .stall => LIBUSB_ERROR_PIPE
  | .noDevice => LIBUSB_ERROR_NO_DEVICE
  | .overflow => LIBUSB_ERROR_OVERFLOW
  | .cancelled => LIBUSB_ERROR_INTERRUPTED
  | .error => LIBUSB_ERROR_IO

/-- `transfer_slot::state` -/
inductive SlotState
  | idle
  | reserved
  | inFlight
  | completed
  deriving DecidableEq, Repr

/-- Where the calls on an awaiter are; `_submitted.store(true)` comes on top. -/
inductive Pc (n : Nat)
  | fresh
  /-- in `_waiting` -/
  | waiting
  /-- at `start_with_slot` -/
  | starting (slot : Fin n)
  /-- at `submit` -/
  | submitting (slot : Fin n)
  /-- libusb has the transfer -/
  | inFlight (slot : Fin n)
  /-- `submit` has failed, or `on_transfer_complete` begins -/
  | storing (completed : Bool) (slot : Fin n) (result : Int)
  /-- at `post_completion` -/
  | posting (slot : Fin n)
  /-- at `release_slot` -/
  | releasing (slot : Fin n)
  | returned
  deriving DecidableEq, Repr

structure State (A : Type*) (n : Nat) where
  status : Fin n → SlotState
  owner : Fin n → Option A
  /-- the awaiter whose data libusb has with a slot -/
  transfer : Fin n → Option A
  freeSlots : List (Fin n)
  waiters : List A
  pc : A → Pc n
  /-- `start_with_slot` is at `_submitted.store(true)` -/
  storesFlag : A → Bool
  cancelled : A → Bool
  waiting : A → Bool
  submitted : A → Bool
  slot : A → Option (Fin n)
  result : A → Int
  /-- the destructor is at `remove_waiter` -/
  removing : A → Bool
  destroyed : A → Bool
  /-- posts that have not been run -/
  queued : A → Nat
  resumed : A → Nat
  misuse : List A
  /-- who had to wait, and who got a slot out of `_waiting`, in order -/
  enqueued : List A
  dequeued : List A
  /-- the slot an awaiter got, and the answer of libusb to its transfer -/
  granted : A → Option (Fin n)
  outcome : A → Option Int
  posts : List (A × Int)
  releases : List (A × Fin n)

inductive Action (A : Type*) (n : Nat)
  | awaitSuspend (a : A)
  | start (a : A)
  /-- `submit`, with the answer of `libusb_submit_transfer` -/
  | submit (a : A) (rc : Int)
  | storeFlag (a : A)
  /-- libusb calls `transfer_cb` -/
  | complete (slot : Fin n) (status : TransferStatus)
  | storeResult (a : A)
  | postCompletion (a : A)
  | release (a : A)
  /-- the executor runs `resume_cb` -/
  | resume (a : A)
  /-- the destructor begins, and drops `h` -/
  | cancel (a : A)
  | destroy (a : A)
  | removeWaiter (a : A)
  deriving DecidableEq, Repr

section Step

variable {A : Type*} [DecidableEq A] {n : Nat}

def State.setPc (s : State A n) (a : A) (pc : Pc n) : State A n :=
  { s with pc := Function.update s.pc a pc }

/-- A member of the awaiter is read or written. -/
def State.touch (s : State A n) (a : A) : State A n :=
  { s with misuse := if s.destroyed a then s.misuse ++ [a] else s.misuse }

/-- `acquire_or_enqueue` -/
def acquireOrEnqueue (s : State A n) (a : A) : State A n :=
  match s.freeSlots with
  | slot :: free =>
      State.setPc
        { s with
          freeSlots := free
          status := Function.update s.status slot .reserved
          granted := Function.update s.granted a (some slot) } a (.starting slot)
  | [] =>
      State.setPc
        { s with
          waiters := s.waiters ++ [a]
          waiting := Function.update s.waiting a true
          enqueued := s.enqueued ++ [a] } a .waiting

/-- `release_slot` up to its call of `start_with_slot`. -/
def releaseSlot (s : State A n) (slot : Fin n) : State A n :=
  match s.waiters with
  | next :: rest =>
      State.setPc
        { s.touch next with
          waiters := rest
          waiting := Function.update s.waiting next false
          status := Function.update s.status slot .reserved
          dequeued := s.dequeued ++ [next]
          granted := Function.update s.granted next (some slot) } next (.starting slot)
  | [] =>
      { s with
        freeSlots := s.freeSlots ++ [slot]
        status := Function.update s.status slot .idle }

def State.endDestructor (s : State A n) (a : A) : State A n :=
  { s with
    removing := Function.update s.removing a false
    destroyed := Function.update s.destroyed a true }

/-- The destructor behind its first store; `libusb_cancel_transfer` only asks for a completion. -/
def destroy (s : State A n) (a : A) : State A n :=
  if s.slot a = none ∧ s.waiting a then
    { s with removing := Function.update s.removing a true }
  else s.endDestructor a

/-- `remove_waiter`, and the end of the destructor. -/
def removeWaiter (s : State A n) (a : A) : State A n :=
  if a ∈ s.waiters then
    State.endDestructor
      { s with
        waiters := s.waiters.erase a
        waiting := Function.update s.waiting a false } a
  else s.endDestructor a

def step (s : State A n) : Action A n → Option (State A n)
  | .awaitSuspend a =>
      if s.pc a = .fresh ∧ s.cancelled a = false then some (acquireOrEnqueue s a) else none
  | .start a =>
      match s.pc a with
      | .starting slot =>
          let s := s.touch a
          if s.cancelled a then some (s.setPc a (.releasing slot))
          else
            some (State.setPc { s with slot := Function.update s.slot a (some slot) } a
              (.submitting slot))
      | _ => none
  | .submit a rc =>
      match s.pc a with
      | .submitting slot =>
          let s := s.touch a
          if rc < 0 then
            some (State.setPc
              { s with
                owner := Function.update s.owner slot none
                status := Function.update s.status slot .idle
                outcome := Function.update s.outcome a (some rc) } a (.storing false slot rc))
          else
            some (State.setPc
              { s with
                owner := Function.update s.owner slot (some a)
                status := Function.update s.status slot .inFlight
                transfer := Function.update s.transfer slot (some a)
                storesFlag := Function.update s.storesFlag a true } a (.inFlight slot))
      | _ => none
  | .storeFlag a =>
      if s.storesFlag a then
        some
          { s.touch a with
            submitted := Function.update s.submitted a true
            storesFlag := Function.update s.storesFlag a false }
      else none
  | .complete slot status =>
      match s.transfer slot with
      | some sent =>
          let result := translateStatus status
          let t :=
            { s with
              transfer := Function.update s.transfer slot none
              outcome := Function.update s.outcome sent (some result)
              status := Function.update s.status slot .completed
              owner := Function.update s.owner slot none }
          match s.owner slot with
          | some a => some (t.setPc a (.storing true slot result))
          | none => some t
      | none => none
  | .storeResult a =>
      match s.pc a with
      | .storing completed slot result =>
          some (State.setPc
            { s.touch a with
              submitted :=
                if completed then Function.update s.submitted a false else s.submitted
              slot := Function.update s.slot a none
              result := Function.update s.result a result } a (.posting slot))
      | _ => none
  | .postCompletion a =>
      match s.pc a with
      | .posting slot =>
          let s := s.touch a
          if s.cancelled a then some (s.setPc a (.releasing slot))
          else
            some (State.setPc
              { s with
                posts := s.posts ++ [(a, s.result a)]
                queued := Function.update s.queued a (s.queued a + 1) } a (.releasing slot))
      | _ => none
  | .release a =>
      match s.pc a with
      | .releasing slot =>
          some (releaseSlot
            (State.setPc { s.touch a with releases := s.releases ++ [(a, slot)] } a .returned)
            slot)
      | _ => none
  | .resume a =>
      if 0 < s.queued a then
        some
          { s.touch a with
            queued := Function.update s.queued a (s.queued a - 1)
            resumed :=
              if s.cancelled a then s.resumed
              else Function.update s.resumed a (s.resumed a + 1) }
      else none
  | .cancel a =>
      if s.cancelled a = false then
        some { s with cancelled := Function.update s.cancelled a true }
      else none
  | .destroy a =>
      if s.cancelled a ∧ s.removing a = false ∧ s.destroyed a = false then some (destroy s a)
      else none
  | .removeWaiter a => if s.removing a then some (removeWaiter s a) else none

/-- Behind the constructors; the one of the device refuses a pool without slots. -/
structure init (s : State A n) : Prop where
  slots : 0 < n
  status : ∀ slot, s.status slot = .idle
  owner : ∀ slot, s.owner slot = none
  transfer : ∀ slot, s.transfer slot = none
  freeSlots : s.freeSlots = List.finRange n
  waiters : s.waiters = []
  pc : ∀ a, s.pc a = .fresh
  storesFlag : ∀ a, s.storesFlag a = false
  cancelled : ∀ a, s.cancelled a = false
  waiting : ∀ a, s.waiting a = false
  submitted : ∀ a, s.submitted a = false
  slot : ∀ a, s.slot a = none
  result : ∀ a, s.result a = LIBUSB_ERROR_OTHER
  removing : ∀ a, s.removing a = false
  destroyed : ∀ a, s.destroyed a = false
  queued : ∀ a, s.queued a = 0
  resumed : ∀ a, s.resumed a = 0
  misuse : s.misuse = []
  enqueued : s.enqueued = []
  dequeued : s.dequeued = []
  granted : ∀ a, s.granted a = none
  outcome : ∀ a, s.outcome a = none
  posts : s.posts = []
  releases : s.releases = []

variable (A n) in
def usbDevice : Machine (State A n) (Action A n) where
  init := init
  step := step

/-! ## What is to hold -/

/-- No dead awaiter was touched, and none owns a slot. -/
structure Safe (s : State A n) : Prop where
  untouched : s.misuse = []
  owner : ∀ slot a, s.owner slot = some a → s.destroyed a = false

/-- A call on the awaiter is under way. -/
def Pc.Active : Pc n → Prop
  | .starting _ | .submitting _ | .storing _ _ _ | .posting _ | .releasing _ => True
  | .fresh | .waiting | .inFlight _ | .returned => False

instance (pc : Pc n) : Decidable pc.Active := by
  unfold Pc.Active
  split <;> infer_instance

/-- No slot has the awaiter as its owner, and every call on it and every post of it is through. -/
structure Unused (s : State A n) (a : A) : Prop where
  owner : ∀ slot, s.owner slot ≠ some a
  calls : ¬ (s.pc a).Active
  flag : s.storesFlag a = false
  queued : s.queued a = 0

instance (s : State A n) (a : A) : Decidable (Unused s a) :=
  decidable_of_iff
    ((∀ slot, s.owner slot ≠ some a) ∧ ¬ (s.pc a).Active ∧ s.storesFlag a = false ∧ s.queued a = 0)
    ⟨fun h => ⟨h.1, h.2.1, h.2.2.1, h.2.2.2⟩, fun h => ⟨h.owner, h.calls, h.flag, h.queued⟩⟩

/-- The destructor of an awaiter goes on when the awaiter is unused. -/
def Settled (s : State A n) : Action A n → Prop
  | .destroy a | .removeWaiter a => Unused s a
  | _ => True

instance (s : State A n) (a : Action A n) : Decidable (Settled s a) :=
  match a with
  | .destroy a | .removeWaiter a => inferInstanceAs (Decidable (Unused s a))
  | .awaitSuspend _ | .start _ | .submit _ _ | .storeFlag _ | .complete _ _ | .storeResult _
  | .postCompletion _ | .release _ | .resume _ | .cancel _ => inferInstanceAs (Decidable True)

end Step

/-! ## Runs of settled steps -/

section Settled

variable {A : Type*} {n : Nat} {s t : State A n} {a : A}

/-- The waiters wait and are alive, and the dead are unused. -/
structure Kept (s : State A n) : Prop where
  untouched : s.misuse = []
  dead : ∀ a, s.destroyed a = true → Unused s a
  cancelled : ∀ a, s.removing a = true ∨ s.destroyed a = true → s.cancelled a = true
  owner : ∀ slot a, s.owner slot = some a → s.pc a = .inFlight slot
  waiters : ∀ a ∈ s.waiters,
    s.pc a = .waiting ∧ s.waiting a = true ∧ s.slot a = none ∧ s.destroyed a = false
  nodup : s.waiters.Nodup
  fresh : ∀ a, s.pc a = .fresh → s.slot a = none

theorem Kept.init (start : init s) : Kept s where
  untouched := start.misuse
  dead a gone := by
    rw [start.destroyed a] at gone
    cases gone
  cancelled a gone := by
    rw [start.removing a, start.destroyed a] at gone
    rcases gone with gone | gone <;> cases gone
  owner slot a owned := by
    rw [start.owner slot] at owned
    cases owned
  waiters a listed := by
    rw [start.waiters] at listed
    cases listed
  nodup := by
    rw [start.waiters]
    exact List.nodup_nil
  fresh a _ := start.slot a

theorem Kept.safe (kept : Kept s) : Safe s where
  untouched := kept.untouched
  owner slot a owned := by
    by_contra gone
    exact (kept.dead a (Bool.eq_true_of_not_eq_false gone)).owner slot owned

/-- An awaiter with a call under way is alive. -/
theorem Kept.alive_of_active (kept : Kept s) (active : (s.pc a).Active) :
    s.destroyed a = false := by
  by_contra gone
  exact (kept.dead a (Bool.eq_true_of_not_eq_false gone)).calls active

theorem Kept.alive_of_flag (kept : Kept s) (flag : s.storesFlag a = true) :
    s.destroyed a = false := by
  by_contra gone
  rw [(kept.dead a (Bool.eq_true_of_not_eq_false gone)).flag] at flag
  cases flag

theorem Kept.alive_of_queued (kept : Kept s) (queued : 0 < s.queued a) :
    s.destroyed a = false := by
  by_contra gone
  rw [(kept.dead a (Bool.eq_true_of_not_eq_false gone)).queued] at queued
  exact absurd queued (lt_irrefl 0)

theorem Unused.keep (unused : Unused s a)
    (owner : ∀ slot, t.owner slot = some a → s.owner slot = some a) (pc : t.pc a = s.pc a)
    (flag : t.storesFlag a = s.storesFlag a) (queued : t.queued a = s.queued a) : Unused t a where
  owner slot owned := unused.owner slot (owner slot owned)
  calls := pc ▸ unused.calls
  flag := flag.trans unused.flag
  queued := queued.trans unused.queued

/-- Nothing that matters to the dead and to the waiters is changed. -/
structure Same (s t : State A n) : Prop where
  misuse : t.misuse = s.misuse
  destroyed : t.destroyed = s.destroyed
  waiters : t.waiters = s.waiters
  waiting : t.waiting = s.waiting
  pc : t.pc = s.pc
  storesFlag : t.storesFlag = s.storesFlag
  slot : t.slot = s.slot
  queued : t.queued = s.queued
  owner : ∀ slot a, t.owner slot = some a → s.owner slot = some a
  cancelled : ∀ a, t.removing a = true ∨ t.destroyed a = true → t.cancelled a = true

theorem Kept.same (kept : Kept s) (same : Same s t) : Kept t where
  untouched := same.misuse.trans kept.untouched
  dead b gone :=
    (kept.dead b (same.destroyed ▸ gone)).keep (fun slot owned => same.owner slot b owned)
      (congrFun same.pc b) (congrFun same.storesFlag b) (congrFun same.queued b)
  cancelled := same.cancelled
  owner slot b owned := same.pc ▸ kept.owner slot b (same.owner slot b owned)
  waiters b listed := by
    rw [same.pc, same.waiting, same.slot, same.destroyed]
    exact kept.waiters b (same.waiters ▸ listed)
  nodup := same.waiters ▸ kept.nodup
  fresh b begins := same.slot ▸ kept.fresh b (same.pc ▸ begins)

/-- Only what the calls on `a` may change is changed. -/
structure Moves (a : A) (s t : State A n) : Prop where
  misuse : t.misuse = s.misuse
  destroyed : t.destroyed = s.destroyed
  removing : t.removing = s.removing
  cancelled : t.cancelled = s.cancelled
  waiters : t.waiters = s.waiters
  waiting : t.waiting = s.waiting
  owner : ∀ slot b, b ≠ a → t.owner slot = some b → s.owner slot = some b
  pc : ∀ b, b ≠ a → t.pc b = s.pc b
  storesFlag : ∀ b, b ≠ a → t.storesFlag b = s.storesFlag b
  slot : ∀ b, b ≠ a → t.slot b = s.slot b
  queued : ∀ b, b ≠ a → t.queued b = s.queued b

/-- A call on an awaiter that is alive, and that does not wait or stays where it is. -/
theorem Kept.moves (kept : Kept s) (moves : Moves a s t) (alive : s.destroyed a = false)
    (goes : s.pc a ≠ .waiting ∧ t.pc a ≠ .fresh ∨ t.pc a = s.pc a ∧ t.slot a = s.slot a)
    (owner : ∀ slot, t.owner slot = some a → t.pc a = .inFlight slot) : Kept t where
  untouched := moves.misuse.trans kept.untouched
  dead b gone := by
    rw [moves.destroyed] at gone
    have other : b ≠ a := by
      rintro rfl
      rw [alive] at gone
      cases gone
    exact (kept.dead b gone).keep (fun slot owned => moves.owner slot b other owned)
      (moves.pc b other) (moves.storesFlag b other) (moves.queued b other)
  cancelled b gone := by
    rw [moves.removing, moves.destroyed] at gone
    rw [moves.cancelled]
    exact kept.cancelled b gone
  owner slot b owned := by
    rcases eq_or_ne b a with rfl | other
    · exact owner slot owned
    · rw [moves.pc b other]
      exact kept.owner slot b (moves.owner slot b other owned)
  waiters b listed := by
    rw [moves.waiters] at listed
    have waits := kept.waiters b listed
    rw [moves.waiting, moves.destroyed]
    rcases eq_or_ne b a with rfl | other
    · rcases goes with ⟨was, -⟩ | ⟨pc, slot⟩
      · exact absurd waits.1 was
      · rw [pc, slot]
        exact waits
    · rw [moves.pc b other, moves.slot b other]
      exact waits
  nodup := moves.waiters ▸ kept.nodup
  fresh b begins := by
    rcases eq_or_ne b a with rfl | other
    · rcases goes with ⟨-, past⟩ | ⟨pc, slot⟩
      · exact absurd begins past
      · exact slot.trans (kept.fresh b (pc ▸ begins))
    · rw [moves.slot b other]
      exact kept.fresh b (moves.pc b other ▸ begins)

theorem State.touch_of_alive (alive : s.destroyed a = false) : s.touch a = s := by
  simp [State.touch, alive]

variable [DecidableEq A]

omit [DecidableEq A] in
/-- A slot gets the awaiter `a` or none as its owner. -/
theorem owner_of_update {slot held : Fin n} {now : Option A} {b : A} (new : now ≠ some b)
    (owned : Function.update s.owner slot now held = some b) :
    held ≠ slot ∧ s.owner held = some b := by
  rcases eq_or_ne held slot with rfl | other
  · rw [Function.update_self] at owned
    exact absurd owned new
  · rw [Function.update_of_ne other] at owned
    exact ⟨other, owned⟩

omit [DecidableEq A] in
/-- The owner of a slot is where it is in flight. -/
theorem Kept.not_owner (kept : Kept s) {slot : Fin n} (off : s.pc a ≠ .inFlight slot) :
    s.owner slot ≠ some a :=
  fun owned => off (kept.owner slot a owned)

theorem Kept.acquireOrEnqueue (kept : Kept s) (fresh : s.pc a = .fresh)
    (begins : s.cancelled a = false) : Kept (acquireOrEnqueue s a) := by
  have alive : s.destroyed a = false := by
    by_contra gone
    rw [kept.cancelled a (.inr (Bool.eq_true_of_not_eq_false gone))] at begins
    cases begins
  have unlisted : a ∉ s.waiters := by
    intro listed
    have waits := (kept.waiters a listed).1
    rw [fresh] at waits
    cases waits
  unfold UsbDevice.acquireOrEnqueue
  split
  · apply kept.moves (a := a) _ alive (.inl ⟨by simp [fresh], by simp [State.setPc]⟩)
    · intro slot owned
      exact absurd owned (kept.not_owner (by simp [fresh]))
    · exact ⟨rfl, rfl, rfl, rfl, rfl, rfl, fun _ _ _ owned => owned,
        fun _ other => Function.update_of_ne other _ _, fun _ _ => rfl, fun _ _ => rfl,
        fun _ _ => rfl⟩
  · refine ⟨kept.untouched, ?_, kept.cancelled, ?_, ?_, ?_, ?_⟩
    · intro b gone
      have other : b ≠ a := by
        rintro rfl
        rw [show s.destroyed b = true from gone] at alive
        cases alive
      exact (kept.dead b gone).keep (fun _ owned => owned) (Function.update_of_ne other _ _) rfl rfl
    · intro slot b owned
      have other : b ≠ a := by
        rintro rfl
        exact kept.not_owner (by simp [fresh]) owned
      simpa [State.setPc, other] using kept.owner slot b owned
    · intro b listed
      rcases List.mem_append.mp listed with earlier | last
      · have other : b ≠ a := by
          rintro rfl
          exact unlisted earlier
        simpa [State.setPc, other] using kept.waiters b earlier
      · rw [List.mem_singleton.mp last]
        simp [State.setPc, kept.fresh a fresh, alive]
    · exact List.nodup_append.mpr ⟨kept.nodup, List.nodup_singleton a, by
        intro b listed c last same
        rw [List.mem_singleton.mp last] at same
        exact unlisted (same ▸ listed)⟩
    · intro b begins
      have other : b ≠ a := by
        rintro rfl
        simp [State.setPc] at begins
      exact kept.fresh b (by simpa [State.setPc, other] using begins)

/-- The first waiter is alive when the slot is handed to it. -/
theorem Kept.releaseSlot (kept : Kept s) (slot : Fin n) : Kept (releaseSlot s slot) := by
  unfold UsbDevice.releaseSlot
  split
  next next rest line =>
    have first := kept.waiters next (line ▸ List.mem_cons_self)
    have nodup := kept.nodup
    rw [line] at nodup
    obtain ⟨notLater, nodup⟩ := List.nodup_cons.mp nodup
    rw [State.touch_of_alive first.2.2.2]
    refine ⟨kept.untouched, ?_, kept.cancelled, ?_, ?_, nodup, ?_⟩
    · intro b gone
      have other : b ≠ next := by
        rintro rfl
        have alive := first.2.2.2
        rw [show s.destroyed b = true from gone] at alive
        cases alive
      exact (kept.dead b gone).keep (fun _ owned => owned) (Function.update_of_ne other _ _) rfl rfl
    · intro held b owned
      have other : b ≠ next := by
        rintro rfl
        exact kept.not_owner (by simp [first.1]) owned
      simpa [State.setPc, other] using kept.owner held b owned
    · intro b listed
      have other : b ≠ next := by
        rintro rfl
        exact notLater listed
      simpa [State.setPc, other] using kept.waiters b (line ▸ List.mem_cons_of_mem _ listed)
    · intro b begins
      have other : b ≠ next := by
        rintro rfl
        simp [State.setPc] at begins
      exact kept.fresh b (by simpa [State.setPc, other] using begins)
  · exact kept.same ⟨rfl, rfl, rfl, rfl, rfl, rfl, rfl, rfl, fun _ _ owned => owned, kept.cancelled⟩

/-- An unused awaiter dies that is in no line. -/
theorem Kept.endDestructor (kept : Kept s) (unused : Unused s a) (cancelled : s.cancelled a = true)
    (unlisted : a ∉ s.waiters) : Kept (s.endDestructor a) where
  untouched := kept.untouched
  dead b gone := by
    have before : Unused s b := by
      rcases eq_or_ne b a with rfl | other
      · exact unused
      · exact kept.dead b ((Function.update_of_ne other _ _).symm.trans gone)
    exact before.keep (fun _ owned => owned) rfl rfl rfl
  cancelled b gone := by
    rcases eq_or_ne b a with rfl | other
    · exact cancelled
    · exact kept.cancelled b (by simpa [State.endDestructor, other] using gone)
  owner := kept.owner
  waiters b listed := by
    have waits := kept.waiters b listed
    have other : b ≠ a := by
      rintro rfl
      exact unlisted listed
    simpa [State.endDestructor, other] using waits
  nodup := kept.nodup
  fresh := kept.fresh

theorem Kept.destroy (kept : Kept s) (unused : Unused s a) (cancelled : s.cancelled a = true) :
    Kept (destroy s a) := by
  unfold UsbDevice.destroy
  split
  next =>
    apply kept.same
    refine ⟨rfl, rfl, rfl, rfl, rfl, rfl, rfl, rfl, fun _ _ owned => owned, ?_⟩
    intro b gone
    rcases eq_or_ne b a with rfl | other
    · exact cancelled
    · exact kept.cancelled b (by simpa [other] using gone)
  next through =>
    apply kept.endDestructor unused cancelled
    intro listed
    have waits := kept.waiters a listed
    exact through ⟨waits.2.2.1, waits.2.1⟩

/-- `remove_waiter` takes the awaiter out of `_waiting`. -/
theorem Kept.removeWaiter (kept : Kept s) (unused : Unused s a) (removing : s.removing a = true) :
    Kept (removeWaiter s a) := by
  have cancelled := kept.cancelled a (.inl removing)
  unfold UsbDevice.removeWaiter
  split
  next listed =>
    have left : Kept
        { s with
          waiters := s.waiters.erase a
          waiting := Function.update s.waiting a false } := by
      refine ⟨kept.untouched,
        fun b gone => (kept.dead b gone).keep (fun _ owned => owned) rfl rfl rfl, kept.cancelled,
        kept.owner, ?_, kept.nodup.erase a, kept.fresh⟩
      intro b later
      obtain ⟨other, later⟩ := (kept.nodup.mem_erase_iff).mp later
      simpa [other] using kept.waiters b later
    exact left.endDestructor (unused.keep (fun _ owned => owned) rfl rfl rfl) cancelled
      kept.nodup.not_mem_erase
  next unlisted => exact kept.endDestructor unused cancelled unlisted

omit [DecidableEq A] in
/-- A call on an awaiter goes on and leaves the owners as they are. -/
theorem Kept.call (kept : Kept s) (moves : Moves a s t) (active : (s.pc a).Active)
    (now : t.pc a ≠ .fresh) (owner : t.owner = s.owner) : Kept t := by
  have was : s.pc a ≠ .waiting := by
    intro here
    rw [here] at active
    exact active
  apply kept.moves moves (kept.alive_of_active active) (.inl ⟨was, now⟩)
  intro slot owned
  rw [owner] at owned
  rw [kept.owner slot a owned] at active
  exact active.elim

theorem Kept.step {x : Action A n} (kept : Kept s) (settled : Settled s x)
    (run : step s x = some t) : Kept t := by
  cases x with
  | awaitSuspend a =>
      obtain ⟨⟨fresh, alive⟩, run⟩ := Option.ite_none_right_eq_some.mp run
      cases run
      exact kept.acquireOrEnqueue fresh alive
  | start a =>
      simp only [UsbDevice.step] at run
      split at run
      next slot here =>
        have active : (s.pc a).Active := by rw [here]; trivial
        rw [State.touch_of_alive (kept.alive_of_active active)] at run
        split at run <;> cases run
        all_goals
          refine kept.call (a := a) ?_ active (by simp [State.setPc]) rfl
          constructor <;> simp +contextual [State.setPc]
      next => cases run
  | submit a rc =>
      simp only [UsbDevice.step] at run
      split at run
      next slot here =>
        have alive := kept.alive_of_active (a := a) (by rw [here]; trivial)
        have apart : ∀ held, s.owner held ≠ some a := fun held => kept.not_owner (by simp [here])
        rw [State.touch_of_alive alive] at run
        split at run <;> cases run
        · apply kept.moves (a := a) _ alive (.inl ⟨by simp [here], by simp [State.setPc]⟩)
          · intro held owned
            exact absurd (owner_of_update (by simp) owned).2 (apart held)
          · constructor <;> simp +contextual [State.setPc]
            exact fun held b _ owned => (owner_of_update (by simp) owned).2
        · apply kept.moves (a := a) _ alive (.inl ⟨by simp [here], by simp [State.setPc]⟩)
          · intro held owned
            rcases eq_or_ne held slot with rfl | other
            · simp [State.setPc]
            · exact absurd ((Function.update_of_ne other _ _).symm.trans owned) (apart held)
          · constructor <;> simp +contextual [State.setPc]
            exact fun held b other owned =>
              (owner_of_update (fun same => other (Option.some.inj same).symm) owned).2
      next => cases run
  | storeFlag a =>
      obtain ⟨flag, run⟩ := Option.ite_none_right_eq_some.mp run
      cases run
      have alive := kept.alive_of_flag flag
      rw [State.touch_of_alive alive]
      refine kept.moves (a := a) ?_ alive (.inr ⟨rfl, rfl⟩)
        fun slot owned => kept.owner slot a owned
      constructor <;> simp +contextual
  | complete slot status =>
      simp only [UsbDevice.step] at run
      split at run
      next sent given =>
        split at run <;> cases run
        next a owned =>
          have alive := kept.safe.owner slot a owned
          have here := kept.owner slot a owned
          apply kept.moves (a := a) _ alive (.inl ⟨by simp [here], by simp [State.setPc]⟩)
          · intro held owned
            obtain ⟨other, owned⟩ := owner_of_update (by simp) owned
            rw [kept.owner held a owned] at here
            exact absurd (Pc.inFlight.inj here) other
          · constructor <;> simp +contextual [State.setPc]
            exact fun held b _ owned => (owner_of_update (by simp) owned).2
        next unowned =>
          exact kept.same ⟨rfl, rfl, rfl, rfl, rfl, rfl, rfl, rfl,
            fun _ _ owned => (owner_of_update (by simp) owned).2, kept.cancelled⟩
      next => cases run
  | storeResult a =>
      simp only [UsbDevice.step] at run
      split at run
      next completed slot result here =>
        cases run
        have active : (s.pc a).Active := by rw [here]; trivial
        rw [State.touch_of_alive (kept.alive_of_active active)]
        refine kept.call (a := a) ?_ active (by simp [State.setPc]) rfl
        constructor <;> simp +contextual [State.setPc]
      next => cases run
  | postCompletion a =>
      simp only [UsbDevice.step] at run
      split at run
      next slot here =>
        have active : (s.pc a).Active := by rw [here]; trivial
        rw [State.touch_of_alive (kept.alive_of_active active)] at run
        split at run <;> cases run
        all_goals
          refine kept.call (a := a) ?_ active (by simp [State.setPc]) rfl
          constructor <;> simp +contextual [State.setPc]
      next => cases run
  | release a =>
      simp only [UsbDevice.step] at run
      split at run
      next slot here =>
        cases run
        have active : (s.pc a).Active := by rw [here]; trivial
        rw [State.touch_of_alive (kept.alive_of_active active)]
        apply Kept.releaseSlot
        refine kept.call (a := a) ?_ active (by simp [State.setPc]) rfl
        constructor <;> simp +contextual [State.setPc]
      next => cases run
  | resume a =>
      obtain ⟨posted, run⟩ := Option.ite_none_right_eq_some.mp run
      cases run
      have alive := kept.alive_of_queued posted
      rw [State.touch_of_alive alive]
      refine kept.moves (a := a) ?_ alive (.inr ⟨rfl, rfl⟩)
        fun slot owned => kept.owner slot a owned
      constructor <;> simp +contextual
  | cancel a =>
      obtain ⟨-, run⟩ := Option.ite_none_right_eq_some.mp run
      cases run
      apply kept.same
      refine ⟨rfl, rfl, rfl, rfl, rfl, rfl, rfl, rfl, fun _ _ owned => owned, ?_⟩
      intro b gone
      rcases eq_or_ne b a with rfl | other
      · exact Function.update_self ..
      · simpa [other] using kept.cancelled b gone
  | destroy a =>
      obtain ⟨⟨cancelled, -, -⟩, run⟩ := Option.ite_none_right_eq_some.mp run
      cases run
      exact kept.destroy settled cancelled
  | removeWaiter a =>
      obtain ⟨removing, run⟩ := Option.ite_none_right_eq_some.mp run
      cases run
      exact kept.removeWaiter settled removing

theorem Kept.via (reach : (usbDevice A n).Via Settled s) : Kept s :=
  reach.invariant (fun _ start => Kept.init start) fun _ _ _ kept settled run =>
    kept.step settled run

/-- **Without an awaiter that is destroyed in use, no step reads or writes a dead awaiter, and no
slot has one as its owner**, for any number of slots and awaiters and in any order of the
steps. -/
theorem untouched_of_settled (reach : (usbDevice A n).Via Settled s) : Safe s :=
  (Kept.via reach).safe

omit [DecidableEq A] in
/-- A dead awaiter is touched. -/
theorem not_safe_of_touch (gone : s.destroyed a = true)
    (misuse : t.misuse = (s.touch a).misuse) : ¬ Safe t := by
  intro safe
  have none := misuse ▸ safe.untouched
  simp [State.touch, gone] at none

theorem releaseSlot_misuse (slot : Fin n) (touched : s.misuse ≠ []) :
    (releaseSlot s slot).misuse ≠ [] := by
  unfold UsbDevice.releaseSlot State.setPc State.touch
  split
  · simp only
    split
    · simp
    · exact touched
  · exact touched

/-- The next step of a call on a dead awaiter touches it. -/
theorem unsafe_of_active (gone : s.destroyed a = true) (active : (s.pc a).Active) :
    ∃ x t, step s x = some t ∧ ¬ Safe t := by
  cases here : s.pc a with
  | fresh | waiting | inFlight slot | returned =>
      rw [here] at active
      exact active.elim
  | starting slot =>
      refine ⟨.start a, ?_⟩
      simp only [UsbDevice.step, here]
      split
      · exact ⟨_, rfl, not_safe_of_touch gone rfl⟩
      · exact ⟨_, rfl, not_safe_of_touch gone rfl⟩
  | submitting slot =>
      refine ⟨.submit a 0, ?_⟩
      simp only [UsbDevice.step, here]
      exact ⟨_, rfl, not_safe_of_touch gone rfl⟩
  | storing completed slot result =>
      refine ⟨.storeResult a, ?_⟩
      simp only [UsbDevice.step, here]
      exact ⟨_, rfl, not_safe_of_touch gone rfl⟩
  | posting slot =>
      refine ⟨.postCompletion a, ?_⟩
      simp only [UsbDevice.step, here]
      split
      · exact ⟨_, rfl, not_safe_of_touch gone rfl⟩
      · exact ⟨_, rfl, not_safe_of_touch gone rfl⟩
  | releasing slot =>
      refine ⟨.release a, ?_⟩
      simp only [UsbDevice.step, here]
      refine ⟨_, rfl, ?_⟩
      intro safe
      apply releaseSlot_misuse slot _ safe.untouched
      simp [State.setPc, State.touch, gone]

/-- **The condition is needed**: an awaiter that is dead and in use is the owner of a slot, or the
next step of a call on it touches it. -/
theorem unsafe_of_used (gone : s.destroyed a = true) (used : ¬ Unused s a) :
    ¬ Safe s ∨ ∃ x t, step s x = some t ∧ ¬ Safe t := by
  by_cases owned : ∃ slot, s.owner slot = some a
  · left
    intro safe
    obtain ⟨slot, owned⟩ := owned
    rw [safe.owner slot a owned] at gone
    cases gone
  · right
    by_cases active : (s.pc a).Active
    · exact unsafe_of_active gone active
    by_cases flag : s.storesFlag a = true
    · exact ⟨.storeFlag a, _, if_pos flag, not_safe_of_touch gone rfl⟩
    by_cases queued : 0 < s.queued a
    · exact ⟨.resume a, _, if_pos queued, not_safe_of_touch gone rfl⟩
    · exact absurd ⟨fun slot owner => owned ⟨slot, owner⟩, active, Bool.eq_false_iff.mpr flag,
        Nat.eq_zero_of_not_pos queued⟩ used

end Settled

/-! ## Concrete runs -/

/-- A device with free slots and awaiters that have not begun. -/
def constructed (A : Type*) (n : Nat) : State A n where
  status := fun _ => .idle
  owner := fun _ => none
  transfer := fun _ => none
  freeSlots := List.finRange n
  waiters := []
  pc := fun _ => .fresh
  storesFlag := fun _ => false
  cancelled := fun _ => false
  waiting := fun _ => false
  submitted := fun _ => false
  slot := fun _ => none
  result := fun _ => LIBUSB_ERROR_OTHER
  removing := fun _ => false
  destroyed := fun _ => false
  queued := fun _ => 0
  resumed := fun _ => 0
  misuse := []
  enqueued := []
  dequeued := []
  granted := fun _ => none
  outcome := fun _ => none
  posts := []
  releases := []

theorem init_constructed {A : Type*} [DecidableEq A] {n : Nat} (slots : 0 < n) :
    (usbDevice A n).init (constructed A n) where
  slots := slots
  status _ := rfl
  owner _ := rfl
  transfer _ := rfl
  freeSlots := rfl
  waiters := rfl
  pc _ := rfl
  storesFlag _ := rfl
  cancelled _ := rfl
  waiting _ := rfl
  submitted _ := rfl
  slot _ := rfl
  result _ := rfl
  removing _ := rfl
  destroyed _ := rfl
  queued _ := rfl
  resumed _ := rfl
  misuse := rfl
  enqueued := rfl
  dequeued := rfl
  granted _ := rfl
  outcome _ := rfl
  posts := rfl
  releases := rfl

/-- Two transfers share a slot; the second is refused by `libusb_submit_transfer`. -/
theorem untouched_of_settled_two :
    ∃ s, (usbDevice Bool 1).execOk Settled (constructed Bool 1)
        [.awaitSuspend false, .start false, .submit false 0, .awaitSuspend true, .storeFlag false,
          .complete 0 (.completed 3), .storeResult false, .postCompletion false, .release false,
          .resume false, .cancel false, .destroy false, .start true, .submit true (-4),
          .storeResult true, .postCompletion true, .resume true, .release true, .cancel true,
          .destroy true] = some s ∧
      s.posts = [(false, 3), (true, LIBUSB_ERROR_NO_DEVICE)] ∧ Safe s := by
  have run : (usbDevice Bool 1).execOk Settled (constructed Bool 1)
      ([.awaitSuspend false, .start false, .submit false 0, .awaitSuspend true, .storeFlag false,
        .complete 0 (.completed 3), .storeResult false, .postCompletion false, .release false,
        .resume false, .cancel false, .destroy false, .start true, .submit true (-4),
        .storeResult true, .postCompletion true, .resume true, .release true, .cancel true,
        .destroy true] : List (Action Bool 1)) = some _ := rfl
  exact ⟨_, run, rfl, untouched_of_settled (.execOk (.init (init_constructed Nat.one_pos)) run)⟩

/-- The executor resumes the coroutine and the awaiter dies before `release_slot` is called
through its `_pool`, or before `_submitted` is set; an awaiter that dies early remains the owner
of its slot, and its completion is stored behind the destructor. -/
theorem released_through_dead :
    (∃ s, (usbDevice Bool 1).Reachable s ∧ s.releases = [(false, 0)] ∧ s.misuse = [false]) ∧
      (∃ s, (usbDevice Bool 1).Reachable s ∧ s.submitted false = true ∧ s.misuse = [false]) ∧
      (∃ s, (usbDevice Bool 1).Reachable s ∧ s.owner 0 = some false ∧ s.destroyed false = true) ∧
      (∃ s, (usbDevice Bool 1).Reachable s ∧ s.result false = LIBUSB_ERROR_INTERRUPTED ∧
        s.misuse = [false]) ∧
      ¬ ∀ s, (usbDevice Bool 1).Reachable s → Safe s := by
  have start := init_constructed (A := Bool) (n := 1) Nat.one_pos
  have released : (usbDevice Bool 1).exec (constructed Bool 1)
      ([.awaitSuspend false, .start false, .submit false 0, .storeFlag false,
        .complete 0 (.completed 3), .storeResult false, .postCompletion false, .resume false,
        .cancel false, .destroy false, .release false] : List (Action Bool 1)) = some _ := rfl
  have flagged : (usbDevice Bool 1).exec (constructed Bool 1)
      ([.awaitSuspend false, .start false, .submit false 0, .complete 0 (.completed 3),
        .storeResult false, .postCompletion false, .release false, .resume false, .cancel false,
        .destroy false, .storeFlag false] : List (Action Bool 1)) = some _ := rfl
  have early : (usbDevice Bool 1).exec (constructed Bool 1)
      ([.awaitSuspend false, .start false, .submit false 0, .storeFlag false, .cancel false,
        .destroy false] : List (Action Bool 1)) = some _ := rfl
  have stored : (usbDevice Bool 1).exec (constructed Bool 1)
      ([.awaitSuspend false, .start false, .submit false 0, .storeFlag false, .cancel false,
        .destroy false, .complete 0 .cancelled, .storeResult false] : List (Action Bool 1)) =
      some _ := rfl
  have reach := Machine.Via.exec (.init start) early
  refine ⟨⟨_, .exec (.init start) released, rfl, rfl⟩, ⟨_, .exec (.init start) flagged, rfl, rfl⟩,
    ⟨_, reach, rfl, rfl⟩, ⟨_, .exec (.init start) stored, rfl, rfl⟩, ?_⟩
  intro safe
  exact absurd ((safe _ reach).owner 0 false rfl) (by decide)

end CoWq.UsbDevice
