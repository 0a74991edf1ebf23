import Mathlib.Algebra.Group.Nat.Defs
import Mathlib.Algebra.GroupWithZero.Nat
import CoWq.Lib.Rounds
import CoWq.IO.IoSerial

/-!
# Two-phase awaiters

The awaiters of one serial queue with what their class does in `attempt_once`: the loops of
`lock_acquired_cb` and `drive_cb` make calls of the kernel, on the data of the awaiter and the
flags of its owner, until one of them is the last.

* `Result`: what a call returns.
* `Derived`: the derived class, one round of its `attempt_once` at a time.
* `Drain`, `Move`, `Derived.machine`: the serial queue with the data, open or closing.
* `stage`: whether the rounds of an awaiter are to come, going on or over, or called off by a close.
* `Affects`, `Derived.step_affects`: what one step does to one awaiter.
* `Lived.via`: the induction rule for what the awaiters do; one that is resumed has either ended
  its rounds or made none.
-/

namespace CoWq.IoSerial

/-- The value of a call of the kernel, and `errno` behind it. -/
structure Result where
  n : Int
  errno : Int := 0
  deriving DecidableEq, Repr

def EAGAIN : Int := 11

def EWOULDBLOCK : Int := 11

def EBADF : Int := 9

/-- `errno == EAGAIN || errno == EWOULDBLOCK` -/
def Result.again (r : Result) : Bool := r.errno = EAGAIN || r.errno = EWOULDBLOCK

/-- `static_cast<ssize_t>` of a `size_t` -/
def ssize (n : Nat) : Int := if n < 2 ^ 63 then n else n - (2 ^ 64 : Nat)

theorem ssize_of_lt {n : Nat} (small : n < 2 ^ 63) : ssize n = n := if_pos small

/-- A class derived from `two_phase_drain_awaiter`, over owners with the flags `O`.  A `continue`
inside `attempt_once` and a positive value of it both go on with the next round. -/
structure Derived (O D Req : Type*) where
  /-- behind the constructor -/
  init : D → Prop
  /-- a round of `attempt_once`, which is told whether the descriptor is valid -/
  attemptOnce : Bool → O → D → Round (O × D) Req Result Attempt
  /-- what the call may return -/
  allowed : Req → Result → Bool
  /-- the flags that `close` sets before and behind `close_fd` -/
  closing : O → O
  closed : O → O

/-- The serial queue with the owner's flags, the awaiters' data and the calls they have made. -/
structure Drain (A O D Req : Type*) extends State A where
  owner : O
  awaiter : A → D
  log : A → List (Req × Result)

inductive Move (A : Type*)
  | serial (act : Action A)
  /-- a round without a call -/
  | leave (a : A)
  | call (a : A) (r : Result)
  deriving DecidableEq, Repr

def Action.isAttempt {A : Type*} : Action A → Bool
  | .attemptOnce _ _ => true
  | _ => false

variable {A O D Req : Type*} [DecidableEq A]

namespace Derived

variable (cls : Derived O D Req)

def flags (o : O) : Action A → O
  | .removeFd => cls.closing o
  | .postPending => cls.closed o
  | _ => o

def step (s : Drain A O D Req) : Move A → Option (Drain A O D Req)
  | .serial act =>
      if act.isAttempt then none
      else (IoSerial.step s.toState act).map fun t =>
        { s with toState := t, owner := cls.flags s.owner act }
  | .leave a =>
      match cls.attemptOnce s.fdValid s.owner (s.awaiter a) with
      | .quit => (IoSerial.step s.toState (.attemptOnce a .done)).map fun t =>
          { s with toState := t }
      | .call _ _ => none
  | .call a r =>
      match cls.attemptOnce s.fdValid s.owner (s.awaiter a) with
      | .quit => none
      | .call req answer =>
          if cls.allowed req r then
            (IoSerial.step s.toState (.attemptOnce a (answer r).2)).map fun t =>
              { toState := t
                owner := (answer r).1.1
                awaiter := Function.update s.awaiter a (answer r).1.2
                log := Function.update s.log a (s.log a ++ [(req, r)]) }
          else none

def machine : Machine (Drain A O D Req) (Move A) where
  init s := IoSerial.init s.toState ∧ ∀ a, cls.init (s.awaiter a) ∧ s.log a = []
  step := cls.step

end Derived

/-! ## The stages of an awaiter -/

inductive Stage
  /-- the slot is not taken yet, and may be given to it -/
  | untouched
  | ongoing
  | ended
  /-- a close has taken it from the waiters, and it is going to be resumed without a round -/
  | calledOff
  | gone
  deriving DecidableEq, Repr

/-- The rounds of an awaiter go on from when it is posted with the slot to the end of its loop. -/
def stageOf : Phase A → Func → Stage
  | .fresh, _ | .waiting, _ | .handed, _ => .untouched
  | .queued, f | .routed, f => if f = .resumeCb then .calledOff else .ongoing
  | .armed, _ | .blocked, _ | .running, _ => .ongoing
  | .finished, _ | .released _, _ => .ended
  | .collected, _ | .resuming, _ => .calledOff
  | .resumed, _ => .gone

def stage (s : State A) (a : A) : Stage := stageOf (s.phase a) (s.func a)

variable {s t : State A}

/-- A step that is no call starts the rounds of an awaiter or calls it off at most, unless it
resumes it. -/
theorem step_stage {act : Action A} (placed : Placed s) (run : step s act = some t)
    (quiet : act.isAttempt = false) (x : A) :
    stage t x = stage s x ∨ (stage s x = .untouched ∧ stage t x = .ongoing) ∨
      (act = .collectWaiters ∧ x ∈ s.waiters ∧ stage s x = .untouched ∧
        stage t x = .calledOff) ∨ stage t x = .gone := by
  obtain ⟨⟨waiting, queued, armed, routed, collected, -, handed, -⟩, ⟨callback, -⟩⟩ := placed
  simp only [stage]
  cases act with
  | awaitSuspend a =>
      obtain ⟨fresh, run⟩ := Option.ite_none_right_eq_some.mp run
      cases run
      by_cases free : (s.setFunc a .lockAcquiredCb).locked = false ∧
          (s.setFunc a .lockAcquiredCb).waiters = []
      · rw [show serialAcquireOrEnqueue (s.setFunc a .lockAcquiredCb) a = _ from if_pos free]
        by_cases same : x = a
        · subst same
          simp [State.setPhase, State.setFunc, stageOf, fresh]
        · simp [State.setPhase, State.setFunc, same]
      · rw [show serialAcquireOrEnqueue (s.setFunc a .lockAcquiredCb) a = _ from if_neg free]
        by_cases same : x = a
        · subst same
          simp [State.setPhase, State.setFunc, stageOf, fresh]
        · simp [State.setPhase, State.setFunc, same]
  | workOnce =>
      simp only [step] at run
      split at run <;> cases run
      rename_i a rest head
      have place := queued a (by simp [head])
      by_cases same : x = a
      · subst same
        cases func : s.func x <;> simp [State.setPhase, stageOf, dispatch, place, func]
      · simp [State.setPhase, same]
  | cbqRun =>
      simp only [step] at run
      split at run <;> cases run
      rename_i a rest head
      have place := routed a (by simp [head])
      by_cases same : x = a
      · subst same
        cases func : s.func x <;> simp [State.setPhase, stageOf, dispatch, place, func]
      · simp [State.setPhase, same]
  | attemptOnce a r => cases quiet
  | registerWait a =>
      obtain ⟨place, run⟩ := Option.ite_none_right_eq_some.mp run
      cases run
      by_cases same : x = a
      · subst same
        simp [State.setPhase, stageOf, place]
      · simp [State.setPhase, same]
  | wake a route =>
      obtain ⟨mem, run⟩ := Option.ite_none_right_eq_some.mp run
      have place := armed a mem
      have func := callback a (.inr (.inr (.inr place)))
      by_cases same : x = a
      · subst same
        cases route <;> cases run <;> simp [State.setPhase, stageOf, place, func]
      · cases route <;> cases run <;> simp [State.setPhase, same]
  | serialRelease a =>
      obtain ⟨place, run⟩ := Option.ite_none_right_eq_some.mp run
      cases run
      simp only [serialRelease]
      split
      · rename_i n rest head
        have next := waiting n (by simp [head])
        by_cases same : x = a
        · subst same
          simp [State.setPhase, stageOf, place]
        · by_cases other : x = n
          · subst other
            simp [State.setPhase, stageOf, same, next]
          · simp [State.setPhase, same, other]
      · by_cases same : x = a
        · subst same
          simp [State.setPhase, stageOf, place]
        · simp [State.setPhase, same]
  | postNext a =>
      simp only [step] at run
      split at run <;> cases run
      rename_i n place
      have next := handed a n place
      have func := callback n (.inr (.inl next))
      by_cases same : x = a
      · subst same
        simp [State.setPhase, stageOf, place]
      · by_cases other : x = n
        · subst other
          simp [State.setPhase, stageOf, same, next, func]
        · simp [State.setPhase, same, other]
  | resume a =>
      simp only [step] at run
      by_cases same : x = a
      · subst same
        refine .inr (.inr (.inr ?_))
        split at run
        · cases run
          simp [State.setPhase, stageOf]
        · obtain ⟨-, run⟩ := Option.ite_none_right_eq_some.mp run
          cases run
          simp [State.setPhase, stageOf]
      · refine .inl ?_
        split at run
        · cases run
          simp [State.setPhase, State.setFunc, same]
        · obtain ⟨-, run⟩ := Option.ite_none_right_eq_some.mp run
          cases run
          simp [State.setPhase, same]
  | removeFd =>
      obtain ⟨-, run⟩ := Option.ite_none_right_eq_some.mp run
      cases run
      exact .inl rfl
  | collectWaiters =>
      obtain ⟨-, run⟩ := Option.ite_none_right_eq_some.mp run
      cases run
      by_cases mem : x ∈ s.waiters
      · refine .inr (.inr (.inl ⟨rfl, mem, ?_⟩))
        simp [serialQueueInit, State.setPhases, stageOf, mem, waiting x mem]
      · simp [serialQueueInit, State.setPhases, mem]
  | postPending =>
      simp only [step] at run
      split at run <;> cases run
      rename_i pending place
      refine .inl ?_
      by_cases mem : x ∈ pending
      · simp [stageOf, mem, collected pending place x mem]
      · simp [mem]
  | reinit fdValid =>
      obtain ⟨-, run⟩ := Option.ite_none_right_eq_some.mp run
      cases run
      exact .inl rfl

/-- A call moves its awaiter by its answer, and no other. -/
theorem attemptOnce_stage {a x : A} {v : Attempt} (run : step s (.attemptOnce a v) = some t) :
    s.phase a = .running ∧ (x ≠ a → stage t x = stage s x) ∧
      stage t a = if v = .done then .ended else .ongoing := by
  obtain ⟨place, run⟩ := Option.ite_none_right_eq_some.mp run
  refine ⟨place, fun ne => ?_, ?_⟩
  · cases v <;> cases run <;> simp [stage, State.setPhase, State.setFunc, ne]
  · cases v <;> cases run <;> simp [stage, stageOf, State.setPhase, State.setFunc, place]

/-! ## What a step does to one awaiter -/

variable {cls : Derived O D Req} {ok : Drain A O D Req → Move A → Prop}

/-- All that a step can do to the awaiter `a`: in the first cases its data stay as they are. -/
inductive Affects (cls : Derived O D Req) (a : A) (s : Drain A O D Req) (move : Move A)
    (t : Drain A O D Req) : Prop
  | stays : stage t.toState a = stage s.toState a → t.awaiter a = s.awaiter a →
      t.log a = s.log a → Affects cls a s move t
  | starts : stage s.toState a = .untouched → stage t.toState a = .ongoing →
      t.awaiter a = s.awaiter a → t.log a = s.log a → Affects cls a s move t
  | callsOff : move = .serial .collectWaiters → a ∈ s.waiters →
      stage s.toState a = .untouched → stage t.toState a = .calledOff →
      t.awaiter a = s.awaiter a → t.log a = s.log a → Affects cls a s move t
  | goes : stage t.toState a = .gone → Affects cls a s move t
  | leaves : stage s.toState a = .ongoing → stage t.toState a = .ended →
      cls.attemptOnce s.fdValid s.owner (s.awaiter a) = .quit → t.awaiter a = s.awaiter a →
      t.log a = s.log a → Affects cls a s move t
  | calls {r : Result} {req : Req} {answer : Result → (O × D) × Attempt} : move = .call a r →
      stage s.toState a = .ongoing →
      stage t.toState a = (if (answer r).2 = .done then .ended else .ongoing) →
      cls.attemptOnce s.fdValid s.owner (s.awaiter a) = .call req answer →
      cls.allowed req r = true → t.awaiter a = (answer r).1.2 →
      t.log a = s.log a ++ [(req, r)] → Affects cls a s move t

theorem Derived.step_placed {s t : Drain A O D Req} {move : Move A} (placed : Placed s.toState)
    (run : cls.step s move = some t) : Placed t.toState := by
  cases move with
  | serial act =>
      obtain ⟨-, run⟩ := Option.ite_none_left_eq_some.mp run
      obtain ⟨u, step, rfl⟩ := Option.map_eq_some_iff.mp run
      exact placed.step step
  | leave a =>
      simp only [Derived.step] at run
      split at run
      · obtain ⟨u, step, rfl⟩ := Option.map_eq_some_iff.mp run
        exact placed.step step
      · cases run
  | call a r =>
      simp only [Derived.step] at run
      split at run
      · cases run
      · obtain ⟨-, run⟩ := Option.ite_none_right_eq_some.mp run
        obtain ⟨u, step, rfl⟩ := Option.map_eq_some_iff.mp run
        exact placed.step step

theorem Derived.step_affects {s t : Drain A O D Req} {move : Move A} (placed : Placed s.toState)
    (run : cls.step s move = some t) (a : A) : Affects cls a s move t := by
  cases move with
  | serial act =>
      obtain ⟨quiet, run⟩ := Option.ite_none_left_eq_some.mp run
      obtain ⟨u, step, rfl⟩ := Option.map_eq_some_iff.mp run
      rcases step_stage placed step (by simpa using quiet) a with
        same | ⟨was, now⟩ | ⟨rfl, mem, was, now⟩ | now
      · exact .stays same rfl rfl
      · exact .starts was now rfl rfl
      · exact .callsOff rfl mem was now rfl rfl
      · exact .goes now
  | leave b =>
      simp only [Derived.step] at run
      split at run
      · rename_i quit
        obtain ⟨u, step, rfl⟩ := Option.map_eq_some_iff.mp run
        obtain ⟨place, others, now⟩ := attemptOnce_stage (x := a) step
        by_cases same : a = b
        · subst same
          exact .leaves (by rw [stage, place]; rfl) now quit rfl rfl
        · exact .stays (others same) rfl rfl
      · cases run
  | call b r =>
      simp only [Derived.step] at run
      split at run
      · cases run
      · rename_i req answer calls
        obtain ⟨may, run⟩ := Option.ite_none_right_eq_some.mp run
        obtain ⟨u, step, rfl⟩ := Option.map_eq_some_iff.mp run
        obtain ⟨place, others, now⟩ := attemptOnce_stage (x := a) step
        by_cases same : a = b
        · subst same
          exact .calls rfl (by rw [stage, place]; rfl) now calls may (Function.update_self ..)
            (Function.update_self ..)
        · exact .stays (others same) (Function.update_of_ne same ..) (Function.update_of_ne same ..)

/-- Where the serial queue and the flags of the owner come from: from a step of the queue and
`close`, or from a round. -/
theorem Derived.step_owner {s t : Drain A O D Req} {move : Move A}
    (run : cls.step s move = some t) :
    (∃ act, move = .serial act ∧ IoSerial.step s.toState act = some t.toState ∧
        t.owner = cls.flags s.owner act) ∨
      ∃ a v, IoSerial.step s.toState (.attemptOnce a v) = some t.toState ∧
        (t.owner = s.owner ∨ ∃ fd d req answer r,
          cls.attemptOnce fd s.owner d = .call req answer ∧ t.owner = (answer r).1.1) := by
  cases move with
  | serial act =>
      obtain ⟨-, run⟩ := Option.ite_none_left_eq_some.mp run
      obtain ⟨u, step, rfl⟩ := Option.map_eq_some_iff.mp run
      exact .inl ⟨act, rfl, step, rfl⟩
  | leave a =>
      simp only [Derived.step] at run
      split at run
      · obtain ⟨u, step, rfl⟩ := Option.map_eq_some_iff.mp run
        exact .inr ⟨a, _, step, .inl rfl⟩
      · cases run
  | call a r =>
      simp only [Derived.step] at run
      split at run
      · cases run
      · rename_i req answer calls
        obtain ⟨-, run⟩ := Option.ite_none_right_eq_some.mp run
        obtain ⟨u, step, rfl⟩ := Option.map_eq_some_iff.mp run
        exact .inr ⟨a, _, step, .inr ⟨_, _, req, answer, r, calls, rfl⟩⟩

/-- A close under way was under way before, or it has just begun. -/
theorem step_closer {act : Action A} (run : step s act = some t) (busy : t.closer ≠ .idle) :
    s.closer ≠ .idle ∨ act = .removeFd := by
  cases quiet : act.touchesSlot with
  | false =>
      obtain ⟨-, -, -, -, -, -, closer, -⟩ := step_slot quiet run
      exact .inl (closer ▸ busy)
  | true =>
      cases act with
      | awaitSuspend a =>
          obtain ⟨-, -, -, -, closer, -⟩ := awaitSuspend_slot run
          exact .inl (closer ▸ busy)
      | serialRelease a =>
          obtain ⟨-, -, -, -, closer, -⟩ := serialRelease_slot run
          exact .inl (closer ▸ busy)
      | removeFd => exact .inr rfl
      | collectWaiters =>
          obtain ⟨removing, -⟩ := Option.ite_none_right_eq_some.mp run
          exact .inl (by simp [removing])
      | postPending =>
          simp only [step] at run
          split at run <;> cases run
          exact (busy rfl).elim
      | reinit fdValid =>
          obtain ⟨⟨idle, -⟩, run⟩ := Option.ite_none_right_eq_some.mp run
          cases run
          exact (busy idle).elim
      | _ => cases quiet

/-! ## What the rounds keep -/

/-- The serial queue of a run is one of `IoSerial.machine`. -/
theorem Drain.placed {s : Drain A O D Req} (reach : cls.machine.Via ok s) : Placed s.toState := by
  refine reach.invariant (I := fun s => Placed s.toState) (fun _ start => ?_)
    fun s move t placed _ run => ?_
  · exact Placed.init start.1
  · exact Derived.step_placed placed run

/-- An awaiter that makes no round is as it was constructed; in its rounds it meets `going`,
behind the last one `done`. -/
structure Lived (cls : Derived O D Req) (going done : D → List (Req × Result) → Prop)
    (s : Drain A O D Req) (a : A) : Prop where
  untouched : stage s.toState a = .untouched → cls.init (s.awaiter a) ∧ s.log a = []
  calledOff : stage s.toState a = .calledOff → cls.init (s.awaiter a) ∧ s.log a = []
  ongoing : stage s.toState a = .ongoing → going (s.awaiter a) (s.log a)
  ended : stage s.toState a = .ended → done (s.awaiter a) (s.log a)

omit [DecidableEq A] in
/-- It is enough to know the stage. -/
theorem Lived.of_stage {going done : D → List (Req × Result) → Prop} {s : Drain A O D Req} {a : A}
    {st : Stage} (here : stage s.toState a = st)
    (lived : match st with
      | .untouched | .calledOff => cls.init (s.awaiter a) ∧ s.log a = []
      | .ongoing => going (s.awaiter a) (s.log a)
      | .ended => done (s.awaiter a) (s.log a)
      | .gone => True) : Lived cls going done s a := by
  constructor <;> intro there <;> cases here.symm.trans there <;> exact lived

/-- The induction rule for what an awaiter does. -/
theorem Lived.via {going done : D → List (Req × Result) → Prop} {a : A}
    (fresh : ∀ d, cls.init d → going d [])
    (leave : ∀ {fd o d log}, going d log → cls.attemptOnce fd o d = .quit → done d log)
    (call : ∀ {s : Drain A O D Req} {r req answer}, ok s (.call a r) →
      going (s.awaiter a) (s.log a) →
      cls.attemptOnce s.fdValid s.owner (s.awaiter a) = .call req answer →
      cls.allowed req r = true →
      if (answer r).2 = .done then done (answer r).1.2 (s.log a ++ [(req, r)])
      else going (answer r).1.2 (s.log a ++ [(req, r)]))
    {s : Drain A O D Req} (reach : cls.machine.Via ok s) : Lived cls going done s a := by
  refine reach.invariant_reach (I := fun s => Lived cls going done s a)
    (fun s start => ?_) (fun s move t before here allowed run => ?_)
  · obtain ⟨serial, data⟩ := start
    have untouched : stage s.toState a = .untouched := by
      rw [stage, serial.2.2.2.2.2.1 a]
      rfl
    exact .of_stage untouched (data a)
  · cases Derived.step_affects (Drain.placed before) run a with
    | stays same awaiter log =>
        constructor <;> intro there <;> rw [awaiter, log]
        · exact here.untouched (same.symm.trans there)
        · exact here.calledOff (same.symm.trans there)
        · exact here.ongoing (same.symm.trans there)
        · exact here.ended (same.symm.trans there)
    | starts was now awaiter log =>
        obtain ⟨data, empty⟩ := here.untouched was
        refine .of_stage now ?_
        rw [awaiter, log, empty]
        exact fresh _ data
    | callsOff _ _ was now awaiter log =>
        refine .of_stage now ?_
        rw [awaiter, log]
        exact here.untouched was
    | goes now => exact .of_stage now trivial
    | leaves was now quit awaiter log =>
        refine .of_stage now ?_
        rw [awaiter, log]
        exact leave (here.ongoing was) quit
    | @calls r req answer move was now calls may awaiter log =>
        subst move
        have next := call allowed (here.ongoing was) calls may
        by_cases last : (answer r).2 = .done
        · rw [if_pos last] at now next
          refine .of_stage now ?_
          rw [awaiter, log]
          exact next
        · rw [if_neg last] at now next
          refine .of_stage now ?_
          rw [awaiter, log]
          exact next

/-- Where a close never finds it among the waiters, an awaiter is not called off. -/
theorem Drain.not_calledOff {a : A}
    (apart : ∀ s, ok s (.serial .collectWaiters) → a ∉ s.waiters) {s : Drain A O D Req}
    (reach : cls.machine.Via ok s) : stage s.toState a ≠ .calledOff := by
  refine reach.invariant_reach (I := fun s => stage s.toState a ≠ .calledOff)
    (fun s start => ?_) (fun s move t before here allowed run => ?_)
  · rw [stage, start.1.2.2.2.2.2.1 a]
    simp [stageOf]
  · cases Derived.step_affects (Drain.placed before) run a with
    | stays same => rwa [same]
    | starts was now => simp [now]
    | callsOff move mem =>
        subst move
        exact (apart s allowed mem).elim
    | goes now => simp [now]
    | leaves was now => simp [now]
    | calls move was now =>
        rw [now]
        split <;> simp

/-- The coroutine of an awaiter is resumed behind its rounds, or because it was called off. -/
theorem Derived.resume_stage {s t : Drain A O D Req} {a : A}
    (run : cls.step s (.serial (.resume a)) = some t) :
    stage s.toState a = .ended ∨ stage s.toState a = .calledOff := by
  have made : (IoSerial.step s.toState (.resume a)).map _ = some t := run
  obtain ⟨u, step, -⟩ := Option.map_eq_some_iff.mp made
  simp only [IoSerial.step] at step
  split at step
  · rename_i place
    exact .inl (by rw [stage, place]; rfl)
  · obtain ⟨place, -⟩ := Option.ite_none_right_eq_some.mp step
    exact .inr (by rw [stage, place]; rfl)

end CoWq.IoSerial
