import CoWq.Lib.Machine
import CoWq.IO.Reactor

/-!
# Closing a socket while its number is in use

Sockets that close in the steps of `close_fd`, workers that attempt an operation and register
for it, and the event loop with its batch of events, in any order; a new socket may get the
number of a closed one.

* `Phase`, `Action`, `step`, `sockets`: the machine.
* `Safe`: what is to hold around a close.
* `Settled`: nobody registers on a number that is being given up, and no event is dispatched
  to the waiters of a later owner of its number.
* `safe_of_settled`: `Safe` holds in the runs of settled steps.
* `stranded_and_cross`: other runs break each part of it.
-/

namespace CoWq.ReactorReuse

open EpollReactor

/-! ## The machine -/

/-- How far a socket has come; `toResume` is the local vector of `remove_fd`. -/
inductive Phase (W : Type*)
  | fresh
  /-- behind `os::create_socket` -/
  | created
  /-- behind `init_fd` -/
  | opened
  /-- `remove_fd` has erased the entry -/
  | erased (toResume : List (WaiterItem W))
  /-- `remove_fd` has called `epoll_ctl` -/
  | deleted (toResume : List (WaiterItem W))
  /-- `remove_fd` has returned -/
  | woken
  /-- the waiters of the serial queues have been posted -/
  | collected
  /-- behind `os::close_fd` -/
  | fileClosed
  /-- `close_fd` has set `_fd` and returned -/
  | closed
  deriving DecidableEq

/-- The socket has a file. -/
def Phase.Holds {W : Type*} : Phase W → Prop
  | .created | .opened | .erased _ | .deleted _ | .woken | .collected => True
  | .fresh | .fileClosed | .closed => False

/-- Its constructor has returned. -/
def Phase.Constructed {W : Type*} : Phase W → Prop
  | .fresh | .created => False
  | _ => True

/-- The waiters `remove_fd` still has to post. -/
def Phase.toResume {W : Type*} : Phase W → List (WaiterItem W)
  | .erased toResume | .deleted toResume => toResume
  | _ => []

instance {W : Type*} (p : Phase W) : Decidable p.Constructed :=
  match p with
  | .fresh | .created => inferInstanceAs (Decidable False)
  | .opened | .erased _ | .deleted _ | .woken | .collected | .fileClosed | .closed =>
      inferInstanceAs (Decidable True)

structure Socket (F W : Type*) where
  /-- `_fd` -/
  fd : F
  phase : Phase W
  deriving DecidableEq

/-- Where the worker of a waiter is. -/
inductive Pc (F : Type*)
  | idle
  /-- `attempt_once` gave EAGAIN -/
  | blocked
  /-- `register_wait` has read `native_handle()` -/
  | loaded (fd : F)
  /-- registered, and not posted yet -/
  | waiting (fd : F)
  deriving DecidableEq, Repr

/-- The number that is about to be registered on. -/
def Pc.loaded? {F : Type*} : Pc F → Option F
  | .loaded fd => some fd
  | _ => none

/-- An `epoll_event` of the batch, and the socket it is about. -/
structure Event (F S : Type*) where
  fd : F
  flags : UInt32
  source : Option S
  deriving DecidableEq, Repr

inductive Cause (S : Type*)
  | event (source : Option S) (flags : UInt32)
  | deadline (now : Int)
  | removed (x : S)
  deriving DecidableEq, Repr

structure Posted (S W : Type*) where
  item : WaiterItem W
  cause : Cause S
  deriving DecidableEq, Repr

structure State (F S W : Type*) where
  sock : S → Socket F W
  /-- the open files of the process -/
  file : F → Option S
  slot : F → Slot W
  /-- `evs`, from the next one on -/
  batch : List (Event F S)
  pc : W → Pc F
  /-- what was posted from the vector of a number -/
  posted : F → List (Posted S W)

inductive Action (F S W : Type*)
  | createSocket (x : S) (fd : F)
  | addFd (x : S)
  /-- `attempt_once` gives EAGAIN -/
  | attempt (w : W)
  | load (w : W)
  | registerWaiter (w : W) (evmask : UInt32) (hasTimeout : Bool) (deadline : Int)
  | eraseFd (x : S)
  | ctlDel (x : S)
  | postRemoved (x : S)
  | collectWaiters (x : S)
  | closeFile (x : S)
  | invalidate (x : S)
  | collectTimeouts (now : Int)
  | epollWait (events : List (F × UInt32))
  | dispatch
  deriving DecidableEq, Repr

variable {F S W : Type*} [DecidableEq F] [DecidableEq S] [DecidableEq W]

def State.setSlot (s : State F S W) (fd : F) (slot : Slot W) : State F S W :=
  { s with slot := fun f => if f = fd then slot else s.slot f }

def State.setPhase (s : State F S W) (x : S) (phase : Phase W) : State F S W :=
  { s with sock := fun y => if y = x then { s.sock y with phase := phase } else s.sock y }

def State.setPc (s : State F S W) (w : W) (pc : Pc F) : State F S W :=
  { s with pc := fun v => if v = w then pc else s.pc v }

/-- `post_via_route` for the waiters taken from each vector; they may run again. -/
def State.post (s : State F S W) (out : F → List (WaiterItem W)) (cause : Cause S) :
    State F S W :=
  { s with
    posted := fun f => s.posted f ++ (out f).map fun wi => ⟨wi, cause⟩
    pc := fun w =>
      match s.pc w with
      | .waiting fd => if w ∈ (out fd).map WaiterItem.waiter then .idle else .waiting fd
      | pc => pc }

/-- `epoll_wait` may report the events `e.2` of the number `e.1`. -/
def State.Ready (s : State F S W) (e : F × UInt32) : Prop :=
  e.2 ≠ 0 ∧ e.2 &&& EPOLLET = 0 ∧ (s.file e.1).isSome ∧ (s.slot e.1).kernel.Covers e.2

instance (s : State F S W) (e : F × UInt32) : Decidable (s.Ready e) :=
  inferInstanceAs (Decidable (_ ∧ _))

variable (owner : W → S) (invalidFd : F)

def step (s : State F S W) : Action F S W → Option (State F S W)
  | .createSocket x fd =>
      if (s.sock x).phase = .fresh ∧ s.file fd = none ∧ fd ≠ invalidFd then
        some
          { s with
            sock := fun y => if y = x then ⟨fd, .created⟩ else s.sock y
            file := fun f => if f = fd then some x else s.file f
            slot := fun f =>
              if f = fd then { s.slot f with kernel := ⟨true, none⟩ } else s.slot f }
      else none
  | .addFd x =>
      if (s.sock x).phase = .created then
        some ((s.setPhase x .opened).setSlot (s.sock x).fd (s.slot (s.sock x).fd).addFd)
      else none
  | .attempt w =>
      if s.pc w = .idle ∧ (s.sock (owner w)).phase.Constructed ∧
          (s.file (s.sock (owner w)).fd).isSome then
        some (s.setPc w .blocked)
      else none
  | .load w =>
      if s.pc w = .blocked then some (s.setPc w (.loaded (s.sock (owner w)).fd)) else none
  | .registerWaiter w evmask hasTimeout deadline =>
      match s.pc w with
      | .loaded fd =>
          some ((s.setPc w (.waiting fd)).setSlot fd
            ((s.slot fd).registerWaiter ⟨evmask, w, hasTimeout, deadline⟩))
      | _ => none
  | .eraseFd x =>
      if (s.sock x).phase = .opened then
        some ((s.setPhase x (.erased (s.slot (s.sock x).fd).erase.1)).setSlot (s.sock x).fd
          (s.slot (s.sock x).fd).erase.2)
      else none
  | .ctlDel x =>
      match (s.sock x).phase with
      | .erased toResume =>
          some ((s.setPhase x (.deleted toResume)).setSlot (s.sock x).fd
            (s.slot (s.sock x).fd).ctlDel)
      | _ => none
  | .postRemoved x =>
      match (s.sock x).phase with
      | .deleted toResume =>
          some ((s.setPhase x .woken).post
            (fun f => if f = (s.sock x).fd then toResume else []) (.removed x))
      | _ => none
  | .collectWaiters x =>
      if (s.sock x).phase = .woken then some (s.setPhase x .collected) else none
  | .closeFile x =>
      if (s.sock x).phase = .collected then
        some
          { s.setPhase x .fileClosed with
            file := fun f => if f = (s.sock x).fd then none else s.file f
            -- the last file of a number takes its registration along
            slot := fun f =>
              if f = (s.sock x).fd then { s.slot f with kernel := ⟨false, none⟩ }
              else s.slot f }
      else none
  | .invalidate x =>
      if (s.sock x).phase = .fileClosed then
        some { s with sock := fun y => if y = x then ⟨invalidFd, .closed⟩ else s.sock y }
      else none
  | .collectTimeouts now =>
      if s.batch = [] then
        some (State.post { s with slot := fun f => ((s.slot f).collectTimeouts now).2 }
          (fun f => ((s.slot f).collectTimeouts now).1) (.deadline now))
      else none
  | .epollWait events =>
      if s.batch = [] ∧ events.length ≤ 32 ∧ (events.map Prod.fst).Nodup ∧
          ∀ e ∈ events, s.Ready e then
        some { s with batch := events.map fun e => ⟨e.1, e.2, s.file e.1⟩ }
      else none
  | .dispatch =>
      match s.batch with
      | e :: batch =>
          some ((State.setSlot { s with batch := batch } e.fd
              ((s.slot e.fd).dispatch e.flags).2).post
            (fun f => if f = e.fd then ((s.slot e.fd).dispatch e.flags).1 else [])
            (.event e.source e.flags))
      | [] => none

/-- No socket, no file, and an empty map. -/
def init (s : State F S W) : Prop :=
  (∀ x, s.sock x = ⟨invalidFd, .fresh⟩) ∧ (∀ f, s.file f = none) ∧
    (∀ f, s.slot f = ⟨none, ⟨false, none⟩⟩) ∧ s.batch = [] ∧ (∀ w, s.pc w = .idle) ∧
    ∀ f, s.posted f = []

def sockets : Machine (State F S W) (Action F S W) where
  init := init invalidFd
  step := step owner invalidFd

/-! ## What is to hold -/

/-- A waiter was posted for an event of its own socket, for its deadline, or by the `remove_fd`
of its own socket. -/
def Posted.Own (p : Posted S W) : Prop :=
  match p.cause with
  | .event source flags => source = some (owner p.item.waiter) ∧
      (flags &&& p.item.mask ≠ 0 ∨ flags &&& (EPOLLERR ||| EPOLLHUP) ≠ 0)
  | .deadline now => p.item.hasTimeout ∧ p.item.deadline ≤ now
  | .removed x => x = owner p.item.waiter

/-- No waiter is posted for another socket, none of a closed socket is left in the map, and the
kernel knows what the waiters of an open socket wait for. -/
structure Safe (s : State F S W) : Prop where
  own : ∀ f, ∀ p ∈ s.posted f, p.Own owner
  gone : ∀ f, ∀ wi ∈ (s.slot f).waiters, (s.sock (owner wi.waiter)).phase ≠ .closed
  covered : ∀ f, ∀ wi ∈ (s.slot f).waiters, (s.sock (owner wi.waiter)).phase.Holds →
    (s.slot (s.sock (owner wi.waiter)).fd).kernel.Covers wi.mask

/-- A waiter registers on a number its socket still has; `remove_fd` and `close_fd` give the
number up when nobody waits on it; and an event that has waiters is of the present owner of
its number. -/
def Settled (s : State F S W) : Action F S W → Prop
  | .registerWaiter w _ _ _ => ∀ fd ∈ (s.pc w).loaded?, s.file fd = some (owner w)
  | .ctlDel x | .closeFile x => (s.slot (s.sock x).fd).waiters = []
  | .dispatch => ∀ e ∈ s.batch.head?,
      (∃ wi ∈ (s.slot e.fd).waiters, Slot.ready e.flags wi) → s.file e.fd = e.source
  | _ => True

instance (s : State F S W) (a : Action F S W) : Decidable (Settled owner s a) :=
  match a with
  | .registerWaiter w _ _ _ =>
      inferInstanceAs (Decidable (∀ fd ∈ (s.pc w).loaded?, s.file fd = some (owner w)))
  | .ctlDel x | .closeFile x =>
      inferInstanceAs (Decidable ((s.slot (s.sock x).fd).waiters = []))
  | .dispatch => inferInstanceAs (Decidable (∀ e ∈ s.batch.head?,
      (∃ wi ∈ (s.slot e.fd).waiters, Slot.ready e.flags wi) → s.file e.fd = e.source))
  | .createSocket _ _ | .addFd _ | .attempt _ | .load _ | .eraseFd _ | .postRemoved _
  | .collectWaiters _ | .invalidate _ | .collectTimeouts _ | .epollWait _ =>
      inferInstanceAs (Decidable True)

/-! ## Runs of settled steps -/

/-- The invariant: a number has the waiters of the socket that has it, and the kernel covers
them. -/
structure Tidy (s : State F S W) : Prop where
  file : ∀ x f, s.file f = some x ↔ (s.sock x).fd = f ∧ (s.sock x).phase.Holds
  live : ∀ f, (s.slot f).kernel.live = (s.file f).isSome
  place : ∀ f, ∀ wi ∈ (s.slot f).waiters, s.file f = some (owner wi.waiter)
  covered : ∀ f, (s.slot f).Covered
  taken : ∀ x, ∀ wi ∈ (s.sock x).phase.toResume, owner wi.waiter = x
  own : ∀ f, ∀ p ∈ s.posted f, p.Own owner

variable {owner invalidFd} {s t : State F S W}

omit [DecidableEq F] [DecidableEq S] [DecidableEq W] in
theorem Tidy.init (start : init invalidFd s) : Tidy owner s := by
  obtain ⟨socks, files, slots, -, -, posts⟩ := start
  constructor
  · intro x f
    simp [socks x, files f, Phase.Holds]
  · intro f
    simp [slots f, files f]
  · intro f wi listed
    simp [slots f, Slot.waiters] at listed
  · intro f
    rw [slots f]
    exact ⟨rfl, fun dead => by cases dead⟩
  · intro x wi listed
    simp [socks x, Phase.toResume] at listed
  · intro f p listed
    simp [posts f] at listed

omit [DecidableEq F] [DecidableEq S] in
theorem Tidy.setPc (tidy : Tidy owner s) (w : W) (pc : Pc F) : Tidy owner (s.setPc w pc) :=
  ⟨tidy.file, tidy.live, tidy.place, tidy.covered, tidy.taken, tidy.own⟩

omit [DecidableEq S] [DecidableEq W] in
theorem Tidy.setSlot (tidy : Tidy owner s) {fd : F} {slot : Slot W}
    (live : slot.kernel.live = (s.slot fd).kernel.live)
    (place : ∀ wi ∈ slot.waiters, s.file fd = some (owner wi.waiter)) (covered : slot.Covered) :
    Tidy owner (s.setSlot fd slot) where
  file := tidy.file
  live f := by
    by_cases here : f = fd
    · simp only [State.setSlot, here, if_true, live, tidy.live]
    · simp only [State.setSlot, here, if_false, tidy.live]
  place f wi listed := by
    by_cases here : f = fd
    · simp only [State.setSlot, here, if_true] at listed
      exact here ▸ place wi listed
    · simp only [State.setSlot, here, if_false] at listed
      exact tidy.place f wi listed
  covered f := by
    by_cases here : f = fd
    · simp only [State.setSlot, here, if_true, covered]
    · simp only [State.setSlot, here, if_false, tidy.covered]
  taken := tidy.taken
  own := tidy.own

omit [DecidableEq F] [DecidableEq W] in
theorem Tidy.setPhase (tidy : Tidy owner s) {x : S} {phase : Phase W}
    (same : phase.Holds ↔ (s.sock x).phase.Holds)
    (taken : ∀ wi ∈ phase.toResume, owner wi.waiter = x) : Tidy owner (s.setPhase x phase) where
  file y f := by
    by_cases here : y = x
    · subst here
      simp only [State.setPhase, if_true, same]
      exact tidy.file y f
    · simp only [State.setPhase, here, if_false]
      exact tidy.file y f
  live := tidy.live
  place := tidy.place
  covered := tidy.covered
  taken y wi listed := by
    by_cases here : y = x
    · subst here
      simp only [State.setPhase, if_true] at listed
      exact taken wi listed
    · simp only [State.setPhase, here, if_false] at listed
      exact tidy.taken y wi listed
  own := tidy.own

omit [DecidableEq F] [DecidableEq S] in
theorem Tidy.post (tidy : Tidy owner s) {out : F → List (WaiterItem W)} {cause : Cause S}
    (own : ∀ f, ∀ wi ∈ out f, Posted.Own owner ⟨wi, cause⟩) : Tidy owner (s.post out cause) where
  file := tidy.file
  live := tidy.live
  place := tidy.place
  covered := tidy.covered
  taken := tidy.taken
  own f p listed := by
    rcases List.mem_append.mp listed with old | new
    · exact tidy.own f p old
    · obtain ⟨wi, posted, rfl⟩ := List.mem_map.mp new
      exact own f wi posted

omit [DecidableEq F] [DecidableEq S] [DecidableEq W] in
/-- A number without a file has no waiters. -/
theorem Tidy.dead (tidy : Tidy owner s) {f : F} (none : s.file f = none) :
    (s.slot f).waiters = [] := by
  refine List.eq_nil_iff_forall_not_mem.mpr fun wi listed => ?_
  have there := tidy.place f wi listed
  rw [none] at there
  cases there

/-! ### Each action -/

theorem Tidy.createSocket (tidy : Tidy owner s) {x : S} {fd : F}
    (run : step owner invalidFd s (.createSocket x fd) = some t) : Tidy owner t := by
  obtain ⟨⟨fresh, free, -⟩, run⟩ := Option.ite_none_right_eq_some.mp run
  cases run
  have unused : ∀ f, s.file f ≠ some x := by
    intro f there
    have holds := ((tidy.file x f).mp there).2
    rw [fresh] at holds
    exact holds
  constructor <;> dsimp only
  · intro y f
    by_cases number : f = fd <;> by_cases here : y = x
    · simp [number, here, Phase.Holds]
    · simp only [number, here, if_true, if_false, Option.some.injEq]
      refine ⟨fun same => (here same.symm).elim, fun there => ?_⟩
      rw [(tidy.file y fd).mpr there] at free
      cases free
    · simp only [number, here, if_true, if_false]
      exact ⟨fun there => (unused f there).elim, fun there => (number there.1.symm).elim⟩
    · simp only [number, here, if_false]
      exact tidy.file y f
  · intro f
    by_cases number : f = fd
    · simp [number]
    · simp only [number, if_false, tidy.live]
  · intro f wi listed
    by_cases number : f = fd
    · simp only [number, if_true] at listed
      have empty : wi ∈ (s.slot fd).waiters := listed
      rw [tidy.dead free] at empty
      cases empty
    · simp only [number, if_false] at listed ⊢
      exact tidy.place f wi listed
  · intro f
    by_cases number : f = fd
    · simp only [number, if_true]
      have interest := (tidy.covered fd).interest
      refine ⟨interest, fun _ => ?_⟩
      have zero : (s.slot fd).interest = 0 := by
        rw [interest, tidy.dead free]
        rfl
      have same : ({ s.slot fd with kernel := ⟨true, none⟩ } : Slot W).interest = 0 := zero
      rw [same, Kernel.Covers, UInt32.zero_or]
    · simp only [number, if_false, tidy.covered]
  · intro y wi listed
    by_cases here : y = x
    · simp [here, Phase.toResume] at listed
    · simp only [here, if_false] at listed
      exact tidy.taken y wi listed
  · exact tidy.own

theorem Tidy.addFd (tidy : Tidy owner s) {x : S}
    (run : step owner invalidFd s (.addFd x) = some t) : Tidy owner t := by
  obtain ⟨created, run⟩ := Option.ite_none_right_eq_some.mp run
  cases run
  have opened : Tidy owner (s.setPhase x .opened) :=
    tidy.setPhase (by simp [created, Phase.Holds]) (by simp [Phase.toResume])
  refine opened.setSlot ?_ ?_ ?_
  · rw [Slot.kernel_addFd]
    rfl
  · rw [Slot.waiters_addFd]
    exact tidy.place _
  · exact (tidy.covered _).addFd

theorem Tidy.registerWaiter (tidy : Tidy owner s) {w : W} {evmask : UInt32} {hasTimeout : Bool}
    {deadline : Int} (settled : Settled owner s (.registerWaiter w evmask hasTimeout deadline))
    (run : step owner invalidFd s (.registerWaiter w evmask hasTimeout deadline) = some t) :
    Tidy owner t := by
  simp only [step] at run
  split at run
  · next fd loaded =>
      cases run
      have still : s.file fd = some (owner w) := settled fd (by simp [loaded, Pc.loaded?])
      refine (tidy.setPc w (.waiting fd)).setSlot ?_ ?_ ?_
      · exact Slot.live_registerWaiter _ _
      · intro wi listed
        rw [Slot.waiters_registerWaiter] at listed
        rcases List.mem_append.mp listed with old | new
        · exact tidy.place fd wi old
        · cases List.mem_singleton.mp new
          exact still
      · exact (tidy.covered fd).registerWaiter _
  · cases run

theorem Tidy.eraseFd (tidy : Tidy owner s) {x : S}
    (run : step owner invalidFd s (.eraseFd x) = some t) : Tidy owner t := by
  obtain ⟨opened, run⟩ := Option.ite_none_right_eq_some.mp run
  cases run
  have here : s.file (s.sock x).fd = some x :=
    (tidy.file x _).mpr ⟨rfl, by simp [opened, Phase.Holds]⟩
  have erased : Tidy owner (s.setPhase x (.erased (s.slot (s.sock x).fd).erase.1)) := by
    refine tidy.setPhase (by simp [opened, Phase.Holds]) ?_
    intro wi listed
    rw [Phase.toResume, Slot.erase_fst] at listed
    have there := tidy.place _ wi listed
    rw [here] at there
    exact (Option.some.inj there).symm
  refine erased.setSlot ?_ ?_ (Slot.Covered.erase _)
  · rw [Slot.kernel_erase]
    rfl
  · simp

theorem Tidy.ctlDel (tidy : Tidy owner s) {x : S} (settled : Settled owner s (.ctlDel x))
    (run : step owner invalidFd s (.ctlDel x) = some t) : Tidy owner t := by
  simp only [step] at run
  split at run
  · next toResume erased =>
      cases run
      have deleted : Tidy owner (s.setPhase x (.deleted toResume)) := by
        refine tidy.setPhase (by simp [erased, Phase.Holds]) ?_
        intro wi listed
        refine tidy.taken x wi ?_
        rw [erased]
        exact listed
      refine deleted.setSlot ?_ ?_ ?_
      · rw [Slot.live_ctlDel]
        rfl
      · rw [Slot.waiters_ctlDel]
        exact tidy.place _
      · exact (tidy.covered _).ctlDel settled
  · cases run

theorem Tidy.postRemoved (tidy : Tidy owner s) {x : S}
    (run : step owner invalidFd s (.postRemoved x) = some t) : Tidy owner t := by
  simp only [step] at run
  split at run
  · next toResume deleted =>
      cases run
      have woken : Tidy owner (s.setPhase x .woken) :=
        tidy.setPhase (by simp [deleted, Phase.Holds]) (by simp [Phase.toResume])
      refine woken.post ?_
      intro f wi listed
      by_cases number : f = (s.sock x).fd
      · simp only [number, if_true] at listed
        have mine := tidy.taken x wi (by rw [deleted]; exact listed)
        exact mine.symm
      · simp [number] at listed
  · cases run

theorem Tidy.closeFile (tidy : Tidy owner s) {x : S} (settled : Settled owner s (.closeFile x))
    (run : step owner invalidFd s (.closeFile x) = some t) : Tidy owner t := by
  obtain ⟨collected, run⟩ := Option.ite_none_right_eq_some.mp run
  cases run
  have here : s.file (s.sock x).fd = some x :=
    (tidy.file x _).mpr ⟨rfl, by simp [collected, Phase.Holds]⟩
  constructor <;> dsimp only [State.setPhase]
  · intro y f
    by_cases mine : y = x
    · subst mine
      by_cases number : f = (s.sock y).fd
      · simp [number, Phase.Holds]
      · simp only [number, if_true, if_false, Phase.Holds, and_false, iff_false]
        intro there
        exact number ((tidy.file y f).mp there).1.symm
    · by_cases number : f = (s.sock x).fd
      · simp only [number, mine, if_true, if_false]
        constructor
        · intro there
          cases there
        · intro there
          have both := (tidy.file y _).mpr there
          rw [here] at both
          exact (mine (Option.some.inj both).symm).elim
      · simp only [number, mine, if_false]
        exact tidy.file y f
  · intro f
    by_cases number : f = (s.sock x).fd
    · simp [number]
    · simp only [number, if_false, tidy.live]
  · intro f wi listed
    by_cases number : f = (s.sock x).fd
    · simp only [number, if_true] at listed
      have none : wi ∈ (s.slot (s.sock x).fd).waiters := listed
      rw [settled] at none
      cases none
    · simp only [number, if_false] at listed ⊢
      exact tidy.place f wi listed
  · intro f
    by_cases number : f = (s.sock x).fd
    · simp only [number, if_true]
      exact ⟨(tidy.covered _).interest, fun dead => by cases dead⟩
    · simp only [number, if_false, tidy.covered]
  · intro y wi listed
    by_cases mine : y = x
    · simp [mine, Phase.toResume] at listed
    · simp only [mine, if_false] at listed
      exact tidy.taken y wi listed
  · exact tidy.own

theorem Tidy.invalidate (tidy : Tidy owner s) {x : S}
    (run : step owner invalidFd s (.invalidate x) = some t) : Tidy owner t := by
  obtain ⟨fileClosed, run⟩ := Option.ite_none_right_eq_some.mp run
  cases run
  constructor <;> dsimp only
  · intro y f
    by_cases mine : y = x
    · subst mine
      simp only [if_true, Phase.Holds, and_false, iff_false]
      intro there
      have holds := ((tidy.file y f).mp there).2
      rw [fileClosed] at holds
      exact holds
    · simp only [mine, if_false]
      exact tidy.file y f
  · exact tidy.live
  · exact tidy.place
  · exact tidy.covered
  · intro y wi listed
    by_cases mine : y = x
    · simp [mine, Phase.toResume] at listed
    · simp only [mine, if_false] at listed
      exact tidy.taken y wi listed
  · exact tidy.own

theorem Tidy.collectTimeouts (tidy : Tidy owner s) {now : Int}
    (run : step owner invalidFd s (.collectTimeouts now) = some t) : Tidy owner t := by
  obtain ⟨-, run⟩ := Option.ite_none_right_eq_some.mp run
  cases run
  have collected :
      Tidy owner { s with slot := fun f => ((s.slot f).collectTimeouts now).2 } := by
    constructor <;> dsimp only
    · exact tidy.file
    · intro f
      rw [Slot.live_collectTimeouts]
      exact tidy.live f
    · intro f wi listed
      rw [Slot.waiters_collectTimeouts] at listed
      exact tidy.place f wi (List.mem_filter.mp listed).1
    · exact fun f => (tidy.covered f).collectTimeouts now
    · exact tidy.taken
    · exact tidy.own
  refine collected.post ?_
  intro f wi listed
  rw [Slot.collectTimeouts_fst] at listed
  have expired := (List.mem_filter.mp listed).2
  simp only [Slot.timedOut, Bool.and_eq_true, decide_eq_true_eq] at expired
  exact expired

theorem Tidy.dispatch (tidy : Tidy owner s) (settled : Settled owner s .dispatch)
    (run : step owner invalidFd s .dispatch = some t) : Tidy owner t := by
  simp only [step] at run
  split at run
  · next e batch fetched =>
      cases run
      have rest : Tidy owner { s with batch := batch } :=
        ⟨tidy.file, tidy.live, tidy.place, tidy.covered, tidy.taken, tidy.own⟩
      have dispatched : Tidy owner (State.setSlot { s with batch := batch } e.fd
          ((s.slot e.fd).dispatch e.flags).2) := by
        refine rest.setSlot ?_ ?_ ?_
        · exact Slot.live_dispatch _ _
        · intro wi listed
          rw [Slot.waiters_dispatch] at listed
          exact tidy.place _ wi (List.mem_filter.mp listed).1
        · exact (tidy.covered _).dispatch _
      refine dispatched.post ?_
      intro f wi listed
      by_cases number : f = e.fd
      · simp only [number, if_true, Slot.dispatch_fst] at listed
        obtain ⟨waits, ready⟩ := List.mem_filter.mp listed
        have same : s.file e.fd = e.source := settled e (by simp [fetched]) ⟨wi, waits, ready⟩
        have mine := tidy.place e.fd wi waits
        rw [same] at mine
        simp only [Slot.ready, Bool.or_eq_true, decide_eq_true_eq] at ready
        exact ⟨mine, ready⟩
      · simp [number] at listed
  · cases run

theorem Tidy.step {a : Action F S W} (tidy : Tidy owner s) (settled : Settled owner s a)
    (run : step owner invalidFd s a = some t) : Tidy owner t := by
  cases a with
  | createSocket => exact tidy.createSocket run
  | addFd => exact tidy.addFd run
  | attempt w =>
      obtain ⟨-, run⟩ := Option.ite_none_right_eq_some.mp run
      cases run
      exact tidy.setPc w .blocked
  | load w =>
      obtain ⟨-, run⟩ := Option.ite_none_right_eq_some.mp run
      cases run
      exact tidy.setPc w _
  | registerWaiter => exact tidy.registerWaiter settled run
  | eraseFd => exact tidy.eraseFd run
  | ctlDel => exact tidy.ctlDel settled run
  | postRemoved => exact tidy.postRemoved run
  | collectWaiters x =>
      obtain ⟨woken, run⟩ := Option.ite_none_right_eq_some.mp run
      cases run
      exact tidy.setPhase (by simp [woken, Phase.Holds]) (by simp [Phase.toResume])
  | closeFile => exact tidy.closeFile settled run
  | invalidate => exact tidy.invalidate run
  | collectTimeouts => exact tidy.collectTimeouts run
  | epollWait events =>
      obtain ⟨-, run⟩ := Option.ite_none_right_eq_some.mp run
      cases run
      exact ⟨tidy.file, tidy.live, tidy.place, tidy.covered, tidy.taken, tidy.own⟩
  | dispatch => exact tidy.dispatch settled run

omit [DecidableEq F] [DecidableEq S] [DecidableEq W] in
theorem Tidy.safe (tidy : Tidy owner s) : Safe owner s where
  own := tidy.own
  gone f wi listed ended := by
    have holds := ((tidy.file _ f).mp (tidy.place f wi listed)).2
    rw [ended] at holds
    exact holds
  covered f wi listed _ := by
    have there := tidy.place f wi listed
    rw [((tidy.file _ f).mp there).1]
    have live : (s.slot f).kernel.live := by
      rw [tidy.live, there]
      rfl
    have covers := (tidy.covered f).covers live
    rw [(tidy.covered f).interest] at covers
    exact covers.mask listed

/-- **Closing, when the steps are settled.** -/
theorem safe_of_settled (reached : (sockets owner invalidFd).Via (Settled owner) s) :
    Safe owner s :=
  Tidy.safe (Machine.Via.invariant (fun _ start => Tidy.init start)
    (fun s _ _ (tidy : Tidy owner s) settled run => tidy.step settled run) reached)

/-! ## Runs that reuse a number -/

/-- Nothing has happened. -/
def blank : State Int Nat Nat where
  sock _ := ⟨-1, .fresh⟩
  file _ := none
  slot _ := ⟨none, ⟨false, none⟩⟩
  batch := []
  pc _ := .idle
  posted _ := []

/-- Waiters `10` to `19` are of socket `1`, and so on. -/
def tens : Machine (State Int Nat Nat) (Action Int Nat Nat) :=
  sockets (fun w => w / 10) (-1)

theorem tens_blank : tens.init blank :=
  ⟨fun _ => rfl, fun _ => rfl, fun _ => rfl, rfl, fun _ => rfl, fun _ => rfl⟩

/-- A socket gets the number `5`. -/
def opens (x : Nat) : List (Action Int Nat Nat) := [.createSocket x 5, .addFd x]

/-- A read that has to wait. -/
def reads (w : Nat) : List (Action Int Nat Nat) :=
  [.attempt w, .load w, .registerWaiter w EPOLLIN false 0]

/-- `remove_fd` -/
def removes (x : Nat) : List (Action Int Nat Nat) := [.eraseFd x, .ctlDel x, .postRemoved x]

/-- The rest of `close_fd`. -/
def closes (x : Nat) : List (Action Int Nat Nat) :=
  [.collectWaiters x, .closeFile x, .invalidate x]

/-- The reader that `remove_fd` has woken comes to an end. -/
def reopened : List (Action Int Nat Nat) :=
  opens 1 ++ reads 10 ++ ([.epollWait [(5, EPOLLIN)], .dispatch] : List (Action Int Nat Nat)) ++
    reads 10 ++ removes 1 ++ closes 1 ++ opens 2 ++ reads 20

theorem safe_of_settled_reopened :
    ∃ s, tens.execOk (Settled fun w => w / 10) blank reopened = some s ∧
      Safe (fun w => w / 10) s := by
  have run : tens.execOk (Settled fun w => w / 10) blank reopened = some _ := rfl
  exact ⟨_, run, safe_of_settled (Machine.Via.execOk (.init tens_blank) run)⟩

/-- The reader that `remove_fd` has woken tries again before `os::close_fd`. -/
def stranded : List (Action Int Nat Nat) :=
  opens 1 ++ reads 10 ++ removes 1 ++ reads 10 ++ closes 1

/-- The number changes hands between `epoll_wait` and the dispatch. -/
def crossed : List (Action Int Nat Nat) :=
  opens 1 ++ reads 10 ++ ([.epollWait [(5, EPOLLIN)]] : List (Action Int Nat Nat)) ++
    removes 1 ++ closes 1 ++ opens 2 ++ reads 20 ++ ([.dispatch] : List (Action Int Nat Nat))

/-- **A waiter of a closed socket stays in the map; the next socket with its number waits for
what the kernel was not asked for; and an event of one socket wakes a reader of another.** -/
theorem stranded_and_cross :
    (∃ s, tens.exec blank stranded = some s ∧ (s.sock 1).phase = .closed ∧
      ⟨EPOLLIN, 10, false, 0⟩ ∈ (s.slot 5).waiters) ∧
    (∃ s, tens.exec blank (stranded ++ opens 2 ++ reads 20) = some s ∧
      (s.sock 2).phase = .opened ∧ (s.sock 2).fd = 5 ∧
      ⟨EPOLLIN, 20, false, 0⟩ ∈ (s.slot 5).waiters ∧ (s.slot 5).kernel.events = none) ∧
    (∃ s, tens.exec blank crossed = some s ∧
      ⟨⟨EPOLLIN, 20, false, 0⟩, .event (some 1) EPOLLIN⟩ ∈ s.posted 5) ∧
    ¬ ∀ s, tens.Reachable s → Safe (fun w => w / 10) s := by
  refine ⟨⟨_, rfl, by decide, by decide⟩, ⟨_, rfl, by decide, by decide, by decide, by decide⟩,
    ⟨_, rfl, by decide⟩, ?_⟩
  intro always
  have run : tens.exec blank stranded = some _ := rfl
  have safe := always _ ((Machine.Via.init tens_blank).exec run)
  exact safe.gone 5 ⟨EPOLLIN, 10, false, 0⟩ (by decide) (by decide)

end CoWq.ReactorReuse
