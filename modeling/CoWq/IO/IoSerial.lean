import CoWq.Lib.Machine
import CoWq.Task.Workqueue

/-!
# Serial IO slots

The serial queue of a socket, the awaiters that take turns on it, and the places
their one intrusive node goes through: the waiters of the slot, the executor,
the reactor and the callback queue.  The steps are the critical sections of
`serial_acquire_or_enqueue` and `serial_release`, the pops of the executor, the
calls of `attempt_once`, and the parts of `close_fd` and of the move assignment.

* `State`, `Action`, `machine`: the system, for any set of awaiters.
* `Holds`: between the acquisition of the slot and its `serial_release`.
* `Placed`: what every run keeps, closing or not: a node is in one place, and
  that place tells whether its awaiter holds the slot.
-/

namespace CoWq.IoSerial

open Workqueue

/-- The callback in a node: `lock_acquired_cb`, `drive_cb` or `resume_cb`. -/
inductive Func
  | lockAcquiredCb
  | driveCb
  | resumeCb
  deriving DecidableEq, Repr

/-- Where an awaiter is: first the places of its node, then what the worker that
popped the node does next. -/
inductive Phase (A : Type*)
  | fresh
  | waiting
  | queued
  | armed
  | routed
  | collected
  /-- out of the waiters, in the hand of the `serial_release` that grants the slot -/
  | handed
  /-- in the loop of `lock_acquired_cb` or `drive_cb`, at `attempt_once` -/
  | running
  /-- `attempt_once` answered `-1` -/
  | blocked
  /-- `attempt_once` answered `0` -/
  | finished
  /-- behind the critical section of `serial_release`, with the node to post -/
  | released (next : Option A)
  /-- in `resume_cb` -/
  | resuming
  | resumed
  deriving DecidableEq, Repr

/-- The thread in `close_fd`. -/
inductive Closer (A : Type*)
  | idle
  /-- in `remove_fd` -/
  | removing
  /-- behind `serial_collect_waiters` -/
  | collected (pending : List A)
  deriving DecidableEq, Repr

/-- The answers of `attempt_once`. -/
inductive Attempt
  | progress
  | done
  | wouldBlock
  deriving DecidableEq, Repr

structure State (A : Type*) where
  locked : Bool
  waiters : List A
  wsHead : List A
  reactor : List A
  cbq : List A
  func : A → Func
  phase : A → Phase A
  closer : Closer A
  fdValid : Bool
  /-- the calls of `serial_acquire_or_enqueue`, in order -/
  calls : List A
  /-- the acquisitions of the slot, in order -/
  grants : List A
  /-- the calls of `serial_release`, in order -/
  releases : List A
  /-- the resumptions of coroutines -/
  resumes : List A
  /-- the acquisitions made before the slot was last reset -/
  epoch : List A

inductive Action (A : Type*)
  | awaitSuspend (a : A)
  | workOnce
  | cbqRun
  | attemptOnce (a : A) (r : Attempt)
  | registerWait (a : A)
  /-- the reactor posts the node, through the callback queue or directly -/
  | wake (a : A) (route : Bool)
  | serialRelease (a : A)
  /-- `serial_release` posts the next node -/
  | postNext (a : A)
  | resume (a : A)
  | removeFd
  | collectWaiters
  | postPending
  /-- `_fd = …; serial_queue_init` of the move assignment -/
  | reinit (fdValid : Bool)
  deriving DecidableEq, Repr

variable {A : Type*} [DecidableEq A]

/-- `_fd` is valid and the queue is as `init_fd` leaves it. -/
def init (s : State A) : Prop :=
  s.locked = false ∧ s.waiters = [] ∧ s.wsHead = [] ∧ s.reactor = [] ∧ s.cbq = [] ∧
    (∀ a, s.phase a = .fresh) ∧ s.closer = .idle ∧ s.fdValid = true ∧
    s.calls = [] ∧ s.grants = [] ∧ s.releases = [] ∧ s.resumes = [] ∧ s.epoch = []

def State.setPhase (s : State A) (a : A) (p : Phase A) : State A :=
  { s with phase := fun x => if x = a then p else s.phase x }

def State.setFunc (s : State A) (a : A) (f : Func) : State A :=
  { s with func := fun x => if x = a then f else s.func x }

/-- `serial_acquire_or_enqueue`. -/
def serialAcquireOrEnqueue (s : State A) (a : A) : State A :=
  if s.locked = false ∧ s.waiters = [] then
    { s with
      locked := true
      wsHead := addNewNolock s.wsHead a
      calls := s.calls ++ [a]
      grants := s.grants ++ [a] }.setPhase a .queued
  else { s with waiters := s.waiters ++ [a], calls := s.calls ++ [a] }.setPhase a .waiting

/-- The critical section of `serial_release`. -/
def serialRelease (s : State A) (a : A) : State A :=
  match s.waiters with
  | n :: rest =>
      (({ s with
        waiters := rest
        grants := s.grants ++ [n]
        releases := s.releases ++ [a] }).setPhase n .handed).setPhase a (.released (some n))
  | [] => { s with locked := false, releases := s.releases ++ [a] }.setPhase a (.released none)

/-- Where a worker goes that calls `func` of a popped node. -/
def dispatch : Func → Phase A
  | .lockAcquiredCb => .running
  | .driveCb => .running
  | .resumeCb => .resuming

/-- `serial_queue_init`, and the same reset in `serial_collect_waiters`. -/
def serialQueueInit (s : State A) : State A :=
  { s with waiters := [], locked := false, epoch := s.grants }

/-- Every node of the list gets the phase. -/
def State.setPhases (s : State A) (as : List A) (p : Phase A) : State A :=
  { s with phase := fun a => if a ∈ as then p else s.phase a }

def step (s : State A) : Action A → Option (State A)
  | .awaitSuspend a =>
      if s.phase a = .fresh then
        some (serialAcquireOrEnqueue (s.setFunc a .lockAcquiredCb) a)
      else none
  | .workOnce =>
      match s.wsHead with
      | [] => none
      | a :: rest => some ({ s with wsHead := rest }.setPhase a (dispatch (s.func a)))
  | .cbqRun =>
      match s.cbq with
      | [] => none
      | a :: rest => some ({ s with cbq := rest }.setPhase a (dispatch (s.func a)))
  | .attemptOnce a r =>
      if s.phase a = .running then
        match r with
        | .progress => some s
        | .done => some (s.setPhase a .finished)
        | .wouldBlock => some ((s.setFunc a .driveCb).setPhase a .blocked)
      else none
  | .registerWait a =>
      if s.phase a = .blocked then
        some ({ s with reactor := s.reactor ++ [a] }.setPhase a .armed)
      else none
  | .wake a route =>
      if a ∈ s.reactor then
        let s := { s with reactor := s.reactor.erase a }
        if route then some ({ s with cbq := s.cbq ++ [a] }.setPhase a .routed)
        else some ({ s with wsHead := addNewNolock s.wsHead a }.setPhase a .queued)
      else none
  | .serialRelease a =>
      if s.phase a = .finished then some (serialRelease s a) else none
  | .postNext a =>
      match s.phase a with
      | .released (some n) =>
          some (({ s with wsHead := addNewNolock s.wsHead n }.setPhase n .queued).setPhase a
            (.released none))
      | _ => none
  | .resume a =>
      if s.phase a = .released none then
        some (({ s with resumes := s.resumes ++ [a] }.setFunc a .resumeCb).setPhase a .resumed)
      else if s.phase a = .resuming then
        some ({ s with resumes := s.resumes ++ [a] }.setPhase a .resumed)
      else none
  | .removeFd =>
      if s.closer = .idle ∧ s.fdValid then some { s with closer := .removing } else none
  | .collectWaiters =>
      if s.closer = .removing then
        some (serialQueueInit
          ({ s with closer := .collected s.waiters }.setPhases s.waiters .collected))
      else none
  | .postPending =>
      match s.closer with
      | .collected pending =>
          some { s with
            func := fun a => if a ∈ pending then .resumeCb else s.func a
            phase := fun a => if a ∈ pending then .queued else s.phase a
            wsHead := postBatch s.wsHead pending
            closer := .idle
            fdValid := false }
      | _ => none
  | .reinit fdValid =>
      if s.closer = .idle ∧ s.fdValid = false then
        some (serialQueueInit { s with fdValid := fdValid })
      else none

def machine : Machine (State A) (Action A) := ⟨init, step⟩

/-- Between the acquisition of the slot and the `serial_release`. -/
def Holds (s : State A) (a : A) : Prop := a ∈ s.grants ∧ a ∉ s.releases

/-! ## Where the node is -/

/-- The places and program points of an awaiter that holds the slot. -/
def holding : Phase A → Func → Bool
  | .handed, _ => true
  | .armed, _ => true
  | .running, _ => true
  | .blocked, _ => true
  | .finished, _ => true
  | .queued, f => f != .resumeCb
  | .routed, f => f != .resumeCb
  | _, _ => false

/-- The program points behind the `serial_release`, or behind a wait that was
called off. -/
def behind : Phase A → Bool
  | .released _ => true
  | .resumed => true
  | _ => false

/-- The lists that link a node, and the phase that goes with each. -/
structure Linked (s : State A) : Prop where
  waiting : ∀ a ∈ s.waiters, s.phase a = .waiting
  queued : ∀ a ∈ s.wsHead, s.phase a = .queued
  armed : ∀ a ∈ s.reactor, s.phase a = .armed
  routed : ∀ a ∈ s.cbq, s.phase a = .routed
  collected : ∀ pending, s.closer = .collected pending → ∀ a ∈ pending, s.phase a = .collected
  nodup : s.waiters.Nodup ∧ s.wsHead.Nodup ∧ s.reactor.Nodup ∧ s.cbq.Nodup ∧
    ∀ pending, s.closer = .collected pending → pending.Nodup
  handed : ∀ a n, s.phase a = .released (some n) → s.phase n = .handed
  hand : ∀ a b n, s.phase a = .released (some n) → s.phase b = .released (some n) → a = b

/-- What the phase says about the history of an awaiter. -/
structure Recorded (s : State A) : Prop where
  callback : ∀ a, (s.phase a = .waiting ∨ s.phase a = .handed ∨ s.phase a = .blocked ∨
    s.phase a = .armed) → s.func a ≠ .resumeCb
  called : ∀ a, s.phase a = .fresh ↔ a ∉ s.calls
  granted : ∀ a ∈ s.grants, a ∈ s.calls
  holds : ∀ a, Holds s a ↔ holding (s.phase a) (s.func a)
  released : ∀ a next, s.phase a = .released next → a ∈ s.releases
  past : ∀ a ∈ s.releases, a ∈ s.grants ∧ behind (s.phase a)
  resumed : ∀ a, a ∈ s.resumes ↔ s.phase a = .resumed
  nodup : s.calls.Nodup ∧ s.grants.Nodup ∧ s.releases.Nodup ∧ s.resumes.Nodup

/-- A node is in one place, which tells whether its awaiter holds the slot. -/
structure Placed (s : State A) : Prop where
  linked : Linked s
  recorded : Recorded s

omit [DecidableEq A] in
theorem Placed.init {s : State A} (start : init s) : Placed s := by
  obtain ⟨-, waiters, wsHead, reactor, cbq, fresh, closer, -, calls, grants, releases, resumes,
    -⟩ := start
  constructor
  · constructor <;> simp [waiters, wsHead, reactor, cbq, fresh, closer]
  · constructor <;> simp [Holds, holding, fresh, calls, grants, releases, resumes]

variable {s t : State A}

theorem Placed.awaitSuspend {a : A} (h : Placed s) (fresh : s.phase a = .fresh) :
    Placed (serialAcquireOrEnqueue (s.setFunc a .lockAcquiredCb) a) := by
  obtain ⟨⟨waiting, queued, armed, routed, collected, nodup, handed, hand⟩,
    ⟨callback, called, granted, holds, released, past, resumed, logs⟩⟩ := h
  by_cases free : s.locked = false ∧ s.waiters = []
  · rw [show serialAcquireOrEnqueue (s.setFunc a .lockAcquiredCb) a = _ from if_pos free]
    constructor
    · constructor <;> dsimp only [State.setFunc, State.setPhase] <;>
        grind -linarith [mem_addNewNolock, nodup_addNewNolock]
    · constructor <;> dsimp only [State.setFunc, State.setPhase] <;>
        grind -linarith [holding, Holds, behind]
  · rw [show serialAcquireOrEnqueue (s.setFunc a .lockAcquiredCb) a = _ from if_neg free]
    constructor
    · constructor <;> dsimp only [State.setFunc, State.setPhase] <;> grind -linarith
    · constructor <;> dsimp only [State.setFunc, State.setPhase] <;>
        grind -linarith [holding, Holds, behind]

/-- A worker takes a node out of the executor or out of the callback queue. -/
theorem Placed.popped {a : A} {wsHead cbq : List A} (h : Placed s)
    (place : s.phase a = .queued ∨ s.phase a = .routed)
    (ws : wsHead.Nodup ∧ ∀ x ∈ wsHead, x ∈ s.wsHead ∧ x ≠ a)
    (cb : cbq.Nodup ∧ ∀ x ∈ cbq, x ∈ s.cbq ∧ x ≠ a) :
    Placed ({ s with wsHead := wsHead, cbq := cbq }.setPhase a (dispatch (s.func a))) := by
  obtain ⟨⟨waiting, queued, armed, routed, collected, nodup, handed, hand⟩,
    ⟨callback, called, granted, holds, released, past, resumed, logs⟩⟩ := h
  simp only [State.setPhase]
  constructor
  · cases func : s.func a <;> constructor <;> dsimp only [dispatch] <;> grind -linarith
  · cases func : s.func a <;> constructor <;> dsimp only [dispatch] <;>
      grind -linarith [holding, Holds, behind]

/-- The worker of an awaiter leaves the loop without the slot changing hands. -/
theorem Placed.attempted {a : A} {p : Phase A} {func : A → Func} (h : Placed s)
    (place : s.phase a = .running) (others : ∀ x, x ≠ a → func x = s.func x)
    (next : p = .blocked ∧ func a = .driveCb ∨ p = .finished) :
    Placed ({ s with func := func }.setPhase a p) := by
  obtain ⟨⟨waiting, queued, armed, routed, collected, nodup, handed, hand⟩,
    ⟨callback, called, granted, holds, released, past, resumed, logs⟩⟩ := h
  constructor
  · constructor <;> dsimp only [State.setPhase] <;> grind -linarith
  · constructor <;> dsimp only [State.setPhase] <;> grind -linarith [holding, Holds, behind]

theorem Placed.registerWait {a : A} (h : Placed s) (place : s.phase a = .blocked) :
    Placed ({ s with reactor := s.reactor ++ [a] }.setPhase a .armed) := by
  obtain ⟨⟨waiting, queued, armed, routed, collected, nodup, handed, hand⟩,
    ⟨callback, called, granted, holds, released, past, resumed, logs⟩⟩ := h
  constructor
  · constructor <;> dsimp only [State.setPhase] <;> grind -linarith
  · constructor <;> dsimp only [State.setPhase] <;> grind -linarith [holding, Holds, behind]

theorem Placed.wakeRouted {a : A} (h : Placed s) (mem : a ∈ s.reactor) :
    Placed ({ s with reactor := s.reactor.erase a, cbq := s.cbq ++ [a] }.setPhase a .routed) := by
  obtain ⟨⟨waiting, queued, armed, routed, collected, nodup, handed, hand⟩,
    ⟨callback, called, granted, holds, released, past, resumed, logs⟩⟩ := h
  have place := armed a mem
  have gone : ∀ x, x ∈ s.reactor.erase a ↔ x ≠ a ∧ x ∈ s.reactor :=
    fun x => nodup.2.2.1.mem_erase_iff
  have left := nodup.2.2.1.erase a
  constructor
  · constructor <;> dsimp only [State.setPhase] <;> grind -linarith
  · constructor <;> dsimp only [State.setPhase] <;> grind -linarith [holding, Holds, behind]

theorem Placed.wakeQueued {a : A} (h : Placed s) (mem : a ∈ s.reactor) :
    Placed ({ s with
      reactor := s.reactor.erase a
      wsHead := addNewNolock s.wsHead a }.setPhase a .queued) := by
  obtain ⟨⟨waiting, queued, armed, routed, collected, nodup, handed, hand⟩,
    ⟨callback, called, granted, holds, released, past, resumed, logs⟩⟩ := h
  have place := armed a mem
  have gone : ∀ x, x ∈ s.reactor.erase a ↔ x ≠ a ∧ x ∈ s.reactor :=
    fun x => nodup.2.2.1.mem_erase_iff
  have left := nodup.2.2.1.erase a
  constructor
  · constructor <;> dsimp only [State.setPhase] <;>
      grind -linarith [mem_addNewNolock, nodup_addNewNolock]
  · constructor <;> dsimp only [State.setPhase] <;> grind -linarith [holding, Holds, behind]

theorem Placed.serialRelease {a : A} (h : Placed s) (place : s.phase a = .finished) :
    Placed (serialRelease s a) := by
  obtain ⟨⟨waiting, queued, armed, routed, collected, nodup, handed, hand⟩,
    ⟨callback, called, granted, holds, released, past, resumed, logs⟩⟩ := h
  have here : Holds s a := (holds a).mpr (by rw [place]; rfl)
  rw [IoSerial.serialRelease]
  cases waiters : s.waiters with
  | nil =>
      constructor
      · constructor <;> dsimp only [State.setPhase] <;> grind -linarith
      · constructor <;> dsimp only [State.setPhase] <;> grind -linarith [holding, Holds, behind]
  | cons n rest =>
      constructor
      · constructor <;> dsimp only [State.setPhase] <;> grind -linarith
      · constructor <;> dsimp only [State.setPhase] <;> grind -linarith [holding, Holds, behind]

theorem Placed.postNext {a n : A} (h : Placed s) (place : s.phase a = .released (some n)) :
    Placed (({ s with wsHead := addNewNolock s.wsHead n }.setPhase n .queued).setPhase a
      (.released none)) := by
  obtain ⟨⟨waiting, queued, armed, routed, collected, nodup, handed, hand⟩,
    ⟨callback, called, granted, holds, released, past, resumed, logs⟩⟩ := h
  constructor
  · constructor <;> dsimp only [State.setPhase] <;>
      grind -linarith [mem_addNewNolock, nodup_addNewNolock]
  · constructor <;> dsimp only [State.setPhase] <;> grind -linarith [holding, Holds, behind]

/-- The coroutine is resumed, behind a `serial_release` or in `resume_cb`. -/
theorem Placed.resume {a : A} {func : A → Func} (h : Placed s)
    (place : s.phase a = .released none ∨ s.phase a = .resuming)
    (others : ∀ x, x ≠ a → func x = s.func x) :
    Placed ({ s with resumes := s.resumes ++ [a], func := func }.setPhase a .resumed) := by
  obtain ⟨⟨waiting, queued, armed, routed, collected, nodup, handed, hand⟩,
    ⟨callback, called, granted, holds, released, past, resumed, logs⟩⟩ := h
  constructor
  · constructor <;> dsimp only [State.setPhase] <;> grind -linarith
  · constructor <;> dsimp only [State.setPhase] <;> grind -linarith [holding, Holds, behind]

theorem Placed.collectWaiters (h : Placed s) :
    Placed (serialQueueInit
      ({ s with closer := .collected s.waiters }.setPhases s.waiters .collected)) := by
  obtain ⟨⟨waiting, queued, armed, routed, collected, nodup, handed, hand⟩,
    ⟨callback, called, granted, holds, released, past, resumed, logs⟩⟩ := h
  constructor
  · constructor <;> dsimp only [serialQueueInit, State.setPhases] <;> grind -linarith
  · constructor <;> dsimp only [serialQueueInit, State.setPhases] <;>
      grind -linarith [holding, Holds, behind]

theorem Placed.postPending {pending : List A} (h : Placed s)
    (place : s.closer = .collected pending) :
    Placed { s with
      func := fun a => if a ∈ pending then .resumeCb else s.func a
      phase := fun a => if a ∈ pending then .queued else s.phase a
      wsHead := postBatch s.wsHead pending
      closer := .idle
      fdValid := false } := by
  obtain ⟨⟨waiting, queued, armed, routed, collected, nodup, handed, hand⟩,
    ⟨callback, called, granted, holds, released, past, resumed, logs⟩⟩ := h
  constructor
  · constructor <;> dsimp only [postBatch] <;> grind -linarith
  · constructor <;> dsimp only [postBatch] <;> grind -linarith [holding, Holds, behind]

/-- The steps that link no node, drop the waiters at most, and keep every phase. -/
theorem Placed.dropped {closer : Closer A} {fdValid locked : Bool} {waiters epoch : List A}
    (h : Placed s) (left : waiters = s.waiters ∨ waiters = [])
    (none' : ∀ pending, closer ≠ .collected pending) :
    Placed { s with
      closer := closer, fdValid := fdValid, locked := locked, waiters := waiters,
      epoch := epoch } := by
  obtain ⟨⟨waiting, queued, armed, routed, collected, nodup, handed, hand⟩,
    ⟨callback, called, granted, holds, released, past, resumed, logs⟩⟩ := h
  constructor
  · constructor <;> dsimp only <;> grind -linarith
  · constructor <;> dsimp only <;> grind -linarith [Holds]

/-- **Every step keeps the nodes placed**, whether the owner is closed or not. -/
theorem Placed.step {a : Action A} (h : Placed s) (run : IoSerial.step s a = some t) :
    Placed t := by
  cases a with
  | awaitSuspend a =>
      simp only [IoSerial.step, Option.ite_none_right_eq_some, Option.some.injEq] at run
      obtain ⟨fresh, rfl⟩ := run
      exact h.awaitSuspend fresh
  | workOnce =>
      simp only [IoSerial.step] at run
      split at run
      · cases run
      · rename_i a rest head
        cases run
        have nodup := h.linked.nodup.2.1
        rw [head] at nodup
        refine h.popped (.inl (h.linked.queued a (by simp [head]))) ⟨nodup.of_cons, fun x mem => ?_⟩
          ⟨h.linked.nodup.2.2.2.1, fun x mem => ⟨mem, ?_⟩⟩
        · exact ⟨by simp [head, mem], fun same => (List.nodup_cons.mp nodup).1 (same ▸ mem)⟩
        · rintro rfl
          have queued := h.linked.queued x (by simp [head])
          rw [h.linked.routed x mem] at queued
          cases queued
  | cbqRun =>
      simp only [IoSerial.step] at run
      split at run
      · cases run
      · rename_i a rest head
        cases run
        have nodup := h.linked.nodup.2.2.2.1
        rw [head] at nodup
        refine h.popped (.inr (h.linked.routed a (by simp [head])))
          ⟨h.linked.nodup.2.1, fun x mem => ⟨mem, ?_⟩⟩ ⟨nodup.of_cons, fun x mem => ?_⟩
        · rintro rfl
          have routed := h.linked.routed x (by simp [head])
          rw [h.linked.queued x mem] at routed
          cases routed
        · exact ⟨by simp [head, mem], fun same => (List.nodup_cons.mp nodup).1 (same ▸ mem)⟩
  | attemptOnce a r =>
      simp only [IoSerial.step, Option.ite_none_right_eq_some] at run
      obtain ⟨place, run⟩ := run
      cases r with
      | progress => cases run; exact h
      | done =>
          cases run
          exact h.attempted place (fun _ _ => rfl) (.inr rfl)
      | wouldBlock =>
          cases run
          exact h.attempted place (fun x ne => if_neg ne) (.inl ⟨rfl, if_pos rfl⟩)
  | registerWait a =>
      simp only [IoSerial.step, Option.ite_none_right_eq_some, Option.some.injEq] at run
      obtain ⟨place, rfl⟩ := run
      exact h.registerWait place
  | wake a route =>
      simp only [IoSerial.step, Option.ite_none_right_eq_some] at run
      obtain ⟨mem, run⟩ := run
      cases route with
      | true => cases run; exact h.wakeRouted mem
      | false => cases run; exact h.wakeQueued mem
  | serialRelease a =>
      simp only [IoSerial.step, Option.ite_none_right_eq_some, Option.some.injEq] at run
      obtain ⟨place, rfl⟩ := run
      exact h.serialRelease place
  | postNext a =>
      simp only [IoSerial.step] at run
      split at run
      · rename_i n place
        cases run
        exact h.postNext place
      · cases run
  | resume a =>
      simp only [IoSerial.step] at run
      split at run
      · rename_i place
        cases run
        exact h.resume (.inl place) (fun x ne => if_neg ne)
      · simp only [Option.ite_none_right_eq_some, Option.some.injEq] at run
        obtain ⟨place, rfl⟩ := run
        exact h.resume (.inr place) (fun _ _ => rfl)
  | removeFd =>
      simp only [IoSerial.step, Option.ite_none_right_eq_some, Option.some.injEq] at run
      obtain ⟨-, rfl⟩ := run
      exact h.dropped (.inl rfl) (fun _ same => by cases same)
  | collectWaiters =>
      simp only [IoSerial.step, Option.ite_none_right_eq_some, Option.some.injEq] at run
      obtain ⟨-, rfl⟩ := run
      exact h.collectWaiters
  | postPending =>
      simp only [IoSerial.step] at run
      split at run
      · rename_i pending place
        cases run
        exact h.postPending place
      · cases run
  | reinit fdValid =>
      simp only [IoSerial.step, Option.ite_none_right_eq_some, Option.some.injEq] at run
      obtain ⟨⟨idle, -⟩, rfl⟩ := run
      exact h.dropped (.inr rfl) (fun _ same => by rw [idle] at same; cases same)

theorem Placed.via {ok : State A → Action A → Prop} (run : machine.Via ok s) : Placed s :=
  run.invariant (fun _ => Placed.init) fun _ _ _ h _ step => h.step step

/-! ## The slot -/

/-- The steps that write the slot, its history or the state of the owner. -/
def Action.touchesSlot : Action A → Bool
  | awaitSuspend _ => true
  | serialRelease _ => true
  | removeFd => true
  | collectWaiters => true
  | postPending => true
  | reinit _ => true
  | _ => false

/-- Every other step leaves the slot as it is. -/
theorem step_slot {a : Action A} (quiet : a.touchesSlot = false) (run : step s a = some t) :
    t.locked = s.locked ∧ t.waiters = s.waiters ∧ t.calls = s.calls ∧ t.grants = s.grants ∧
      t.releases = s.releases ∧ t.epoch = s.epoch ∧ t.closer = s.closer ∧
      t.fdValid = s.fdValid := by
  cases a with
  | workOnce =>
      simp only [step] at run
      split at run <;> cases run
      exact ⟨rfl, rfl, rfl, rfl, rfl, rfl, rfl, rfl⟩
  | cbqRun =>
      simp only [step] at run
      split at run <;> cases run
      exact ⟨rfl, rfl, rfl, rfl, rfl, rfl, rfl, rfl⟩
  | attemptOnce a r =>
      simp only [step, Option.ite_none_right_eq_some] at run
      obtain ⟨-, run⟩ := run
      cases r <;> cases run <;> exact ⟨rfl, rfl, rfl, rfl, rfl, rfl, rfl, rfl⟩
  | registerWait a =>
      simp only [step, Option.ite_none_right_eq_some, Option.some.injEq] at run
      obtain ⟨-, rfl⟩ := run
      exact ⟨rfl, rfl, rfl, rfl, rfl, rfl, rfl, rfl⟩
  | wake a route =>
      simp only [step, Option.ite_none_right_eq_some] at run
      obtain ⟨-, run⟩ := run
      cases route <;> cases run <;> exact ⟨rfl, rfl, rfl, rfl, rfl, rfl, rfl, rfl⟩
  | postNext a =>
      simp only [step] at run
      split at run <;> cases run
      exact ⟨rfl, rfl, rfl, rfl, rfl, rfl, rfl, rfl⟩
  | resume a =>
      simp only [step] at run
      split at run
      · cases run
        exact ⟨rfl, rfl, rfl, rfl, rfl, rfl, rfl, rfl⟩
      · simp only [Option.ite_none_right_eq_some, Option.some.injEq] at run
        obtain ⟨-, rfl⟩ := run
        exact ⟨rfl, rfl, rfl, rfl, rfl, rfl, rfl, rfl⟩
  | awaitSuspend a => cases quiet
  | serialRelease a => cases quiet
  | removeFd => cases quiet
  | collectWaiters => cases quiet
  | postPending => cases quiet
  | reinit fdValid => cases quiet

/-- `serial_acquire_or_enqueue` either takes the free slot or joins the waiters. -/
theorem awaitSuspend_slot {a : A} (run : step s (.awaitSuspend a) = some t) :
    s.phase a = .fresh ∧ t.calls = s.calls ++ [a] ∧ t.releases = s.releases ∧
      t.epoch = s.epoch ∧ t.closer = s.closer ∧ t.fdValid = s.fdValid ∧
      ((s.locked = false ∧ s.waiters = [] ∧ t.locked = true ∧ t.waiters = [] ∧
          t.grants = s.grants ++ [a]) ∨
        (¬ (s.locked = false ∧ s.waiters = []) ∧ t.locked = s.locked ∧
          t.waiters = s.waiters ++ [a] ∧ t.grants = s.grants)) := by
  simp only [step, Option.ite_none_right_eq_some, Option.some.injEq] at run
  obtain ⟨fresh, rfl⟩ := run
  by_cases free : s.locked = false ∧ s.waiters = []
  · rw [show serialAcquireOrEnqueue (s.setFunc a .lockAcquiredCb) a = _ from if_pos free]
    exact ⟨fresh, rfl, rfl, rfl, rfl, rfl, .inl ⟨free.1, free.2, rfl, free.2, rfl⟩⟩
  · rw [show serialAcquireOrEnqueue (s.setFunc a .lockAcquiredCb) a = _ from if_neg free]
    exact ⟨fresh, rfl, rfl, rfl, rfl, rfl, .inr ⟨free, rfl, rfl, rfl⟩⟩

/-- `serial_release` hands the slot to the first waiter, or unlocks it. -/
theorem serialRelease_slot {a : A} (run : step s (.serialRelease a) = some t) :
    s.phase a = .finished ∧ t.calls = s.calls ∧ t.releases = s.releases ++ [a] ∧
      t.epoch = s.epoch ∧ t.closer = s.closer ∧ t.fdValid = s.fdValid ∧
      ((s.waiters = [] ∧ t.locked = false ∧ t.waiters = [] ∧ t.grants = s.grants) ∨
        ∃ n, s.waiters = n :: t.waiters ∧ t.locked = s.locked ∧ t.grants = s.grants ++ [n]) := by
  simp only [step, Option.ite_none_right_eq_some, Option.some.injEq] at run
  obtain ⟨place, rfl⟩ := run
  rw [serialRelease]
  cases waiters : s.waiters with
  | nil => exact ⟨place, rfl, rfl, rfl, rfl, rfl, .inl ⟨rfl, rfl, rfl, rfl⟩⟩
  | cons n rest => exact ⟨place, rfl, rfl, rfl, rfl, rfl, .inr ⟨n, rfl, rfl, rfl⟩⟩

omit [DecidableEq A] in
theorem Placed.not_granted {a : A} (h : Placed s)
    (place : s.phase a = .fresh ∨ s.phase a = .waiting) : a ∉ s.grants := by
  intro granted
  have released : a ∈ s.releases := by
    by_contra out
    have holds := (h.recorded.holds a).mp ⟨granted, out⟩
    rcases place with place | place <;> rw [place] at holds <;> cases holds
  have behind := (h.recorded.past a released).2
  rcases place with place | place <;> rw [place] at behind <;> cases behind

/-- A step grants the slot to nobody, or to one awaiter that never had it. -/
theorem grants_step {a : Action A} (h : Placed s) (run : step s a = some t) :
    t.grants = s.grants ∨ ∃ n, n ∉ s.grants ∧ t.grants = s.grants ++ [n] := by
  cases quiet : a.touchesSlot with
  | false => exact .inl (step_slot quiet run).2.2.2.1
  | true =>
      cases a with
      | awaitSuspend a =>
          obtain ⟨fresh, -, -, -, -, -, taken | queued⟩ := awaitSuspend_slot run
          · exact .inr ⟨a, h.not_granted (.inl fresh), taken.2.2.2.2⟩
          · exact .inl queued.2.2.2
      | serialRelease a =>
          obtain ⟨-, -, -, -, -, -, unlocked | ⟨n, waiters, -, grants⟩⟩ := serialRelease_slot run
          · exact .inl unlocked.2.2.2
          · have waits := h.linked.waiting n (by simp [waiters])
            exact .inr ⟨n, h.not_granted (.inr waits), grants⟩
      | removeFd =>
          simp only [step, Option.ite_none_right_eq_some, Option.some.injEq] at run
          obtain ⟨-, rfl⟩ := run
          exact .inl rfl
      | collectWaiters =>
          simp only [step, Option.ite_none_right_eq_some, Option.some.injEq] at run
          obtain ⟨-, rfl⟩ := run
          exact .inl rfl
      | postPending =>
          simp only [step] at run
          split at run <;> cases run
          exact .inl rfl
      | reinit fdValid =>
          simp only [step, Option.ite_none_right_eq_some, Option.some.injEq] at run
          obtain ⟨-, rfl⟩ := run
          exact .inl rfl
      | _ => cases quiet

/-! ## The end of an operation -/

/-- Behind the last `attempt_once`. -/
def late : Phase A → Bool
  | .finished => true
  | .released _ => true
  | .resumed => true
  | _ => false

/-- Only the attempt that ends an operation takes its awaiter behind the last one,
and nothing takes it back. -/
theorem late_step {a : Action A} (h : Placed s) (run : step s a = some t) (x : A)
    (owned : s.phase x ≠ .resuming) (other : a ≠ .attemptOnce x .done) :
    late (t.phase x) = late (s.phase x) := by
  obtain ⟨⟨waiting, queued, armed, routed, collected, nodup, handed, hand⟩, -⟩ := h
  cases a with
  | awaitSuspend a =>
      simp only [step, Option.ite_none_right_eq_some, Option.some.injEq] at run
      obtain ⟨fresh, rfl⟩ := run
      by_cases free : s.locked = false ∧ s.waiters = []
      · rw [show serialAcquireOrEnqueue (s.setFunc a .lockAcquiredCb) a = _ from if_pos free]
        dsimp only [State.setFunc, State.setPhase]
        grind -linarith [late]
      · rw [show serialAcquireOrEnqueue (s.setFunc a .lockAcquiredCb) a = _ from if_neg free]
        dsimp only [State.setFunc, State.setPhase]
        grind -linarith [late]
  | workOnce =>
      simp only [step] at run
      split at run <;> cases run
      rename_i a rest head
      have place := queued a (by simp [head])
      cases func : s.func a <;> dsimp only [State.setPhase, dispatch] <;> grind -linarith [late]
  | cbqRun =>
      simp only [step] at run
      split at run <;> cases run
      rename_i a rest head
      have place := routed a (by simp [head])
      cases func : s.func a <;> dsimp only [State.setPhase, dispatch] <;> grind -linarith [late]
  | attemptOnce a r =>
      simp only [step, Option.ite_none_right_eq_some] at run
      obtain ⟨place, run⟩ := run
      cases r <;> cases run <;> dsimp only [State.setFunc, State.setPhase] <;>
        grind -linarith [late]
  | registerWait a =>
      simp only [step, Option.ite_none_right_eq_some, Option.some.injEq] at run
      obtain ⟨place, rfl⟩ := run
      dsimp only [State.setPhase]
      grind -linarith [late]
  | wake a route =>
      simp only [step, Option.ite_none_right_eq_some] at run
      obtain ⟨mem, run⟩ := run
      have place := armed a mem
      cases route <;> cases run <;> dsimp only [State.setPhase] <;> grind -linarith [late]
  | serialRelease a =>
      simp only [step, Option.ite_none_right_eq_some, Option.some.injEq] at run
      obtain ⟨place, rfl⟩ := run
      rw [serialRelease]
      cases waiters : s.waiters with
      | nil =>
          dsimp only [State.setPhase]
          grind -linarith [late]
      | cons n rest =>
          have waits := waiting n (by simp [waiters])
          dsimp only [State.setPhase]
          grind -linarith [late]
  | postNext a =>
      simp only [step] at run
      split at run <;> cases run
      rename_i n place
      have hand := handed a n place
      dsimp only [State.setPhase]
      grind -linarith [late]
  | resume a =>
      simp only [step] at run
      split at run
      · cases run
        dsimp only [State.setFunc, State.setPhase]
        grind -linarith [late]
      · simp only [Option.ite_none_right_eq_some, Option.some.injEq] at run
        obtain ⟨place, rfl⟩ := run
        dsimp only [State.setPhase]
        grind -linarith [late]
  | removeFd =>
      simp only [step, Option.ite_none_right_eq_some, Option.some.injEq] at run
      obtain ⟨-, rfl⟩ := run
      rfl
  | collectWaiters =>
      simp only [step, Option.ite_none_right_eq_some, Option.some.injEq] at run
      obtain ⟨-, rfl⟩ := run
      dsimp only [serialQueueInit, State.setPhases]
      grind -linarith [late]
  | postPending =>
      simp only [step] at run
      split at run <;> cases run
      rename_i pending place
      dsimp only
      grind -linarith [late]
  | reinit fdValid =>
      simp only [step, Option.ite_none_right_eq_some, Option.some.injEq] at run
      obtain ⟨-, rfl⟩ := run
      rfl

theorem late_mono {a : Action A} (h : Placed s) (run : step s a = some t) {x : A}
    (before : late (s.phase x)) : late (t.phase x) := by
  by_cases ends : a = .attemptOnce x .done
  · subst ends
    simp only [step, Option.ite_none_right_eq_some] at run
    rw [run.1] at before
    cases before
  · rw [late_step h run x (fun same => by rw [same] at before; cases before) ends]
    exact before

/-- The steps that are no call of `serial_acquire_or_enqueue` add none. -/
theorem calls_step {a : Action A} (run : step s a = some t) (other : ∀ x, a ≠ .awaitSuspend x) :
    t.calls = s.calls := by
  cases quiet : a.touchesSlot with
  | false => exact (step_slot quiet run).2.2.1
  | true =>
      cases a with
      | awaitSuspend a => exact (other a rfl).elim
      | serialRelease a => exact (serialRelease_slot run).2.1
      | removeFd =>
          simp only [step, Option.ite_none_right_eq_some, Option.some.injEq] at run
          exact run.2 ▸ rfl
      | collectWaiters =>
          simp only [step, Option.ite_none_right_eq_some, Option.some.injEq] at run
          exact run.2 ▸ rfl
      | postPending =>
          simp only [step] at run
          split at run <;> cases run
          rfl
      | reinit fdValid =>
          simp only [step, Option.ite_none_right_eq_some, Option.some.injEq] at run
          exact run.2 ▸ rfl
      | _ => cases quiet

end CoWq.IoSerial
