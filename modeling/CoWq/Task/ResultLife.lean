import CoWq.Task.DestroyOnce

/-!
# The life of a result

The value that a coroutine returns is constructed in a union inside of its promise, whose destructor
does nothing; only `move`, on the way to the owner, destroys it.

* `Uninitialized`, `Promise`: the storage and the promise with the code's functions.
* `Action`, `step`, `frame`: the machine of one coroutine, from its `Task` to its destruction.
* `DestroyedOnce`: nothing is read that was not constructed, and each object is destroyed once.
* `Life.Consumed`: nothing is left in the storage, and nothing is taken from it that is not there.
* `destroyedOnce_iff`: exactly when the results of a coroutine are destroyed once.
* `follows_of_via`: a coroutine that `post_to` has started, on the workqueue and here;
  `posted_lost`: the value it returns.
-/

namespace CoWq.ResultLife

/-! ## The storage -/

/-- `Uninitialized<T>`: the object in the union if there is one, by its number. -/
structure Uninitialized where
  mValue : Option Nat := none
  /-- how many objects were constructed here -/
  built : Nat := 0
  destroyed : List Nat := []
  /-- `move` was called without an object -/
  undefined : Bool := false
  deriving DecidableEq, Repr

/-- `emplace`: an object that was here is written over. -/
def Uninitialized.emplace (u : Uninitialized) : Uninitialized :=
  { u with mValue := some u.built, built := u.built + 1 }

/-- `move`; the move constructor of `T` may throw, and then nothing is destroyed. -/
def Uninitialized.move (u : Uninitialized) (throws : Bool) : Uninitialized :=
  match u.mValue with
  | none => { u with undefined := true }
  | some object =>
      if throws then u else { u with mValue := none, destroyed := u.destroyed ++ [object] }

/-! ## The promise -/

/-- `Promise<T>` -/
structure Promise where
  /-- `mPrevious` is set -/
  mPrevious : Bool := false
  /-- `mException` is set -/
  mException : Bool := false
  mResult : Uninitialized := {}
  deriving DecidableEq, Repr

/-- `return_value`, for lvalues and for rvalues -/
def Promise.returnValue (p : Promise) : Promise := { p with mResult := p.mResult.emplace }

/-- `unhandled_exception` -/
def Promise.unhandledException (p : Promise) (useException : Bool) : Promise :=
  if useException then { p with mException := true } else p

/-- `result` -/
def Promise.result (p : Promise) (useException throws : Bool) : Promise :=
  if useException && p.mException then p else { p with mResult := p.mResult.move throws }

/-! ## The machine -/

inductive Stage
  | initial
  | running
  /-- behind `return_value`; the locals are destroyed -/
  | leaving
  | suspended
  /-- at the final suspend -/
  | final
  /-- the owner has called `result` -/
  | taken
  | destroyed
  deriving DecidableEq, Repr

/-- What happened to a coroutine. -/
structure Life where
  /-- how often it came to a `co_return` -/
  returns : Nat := 0
  /-- an exception left the body -/
  escaped : Bool := false
  /-- it came to its final suspend -/
  finished : Bool := false
  awaited : Bool := false
  /-- moving the result out of the promise threw -/
  moveThrew : Bool := false
  deriving DecidableEq, Repr

structure State where
  stage : Stage := .initial
  promise : Promise := {}
  /-- `post_to` has detached the `Task` -/
  detached : Bool := false
  life : Life := {}
  deriving DecidableEq, Repr

inductive Action
  /-- `await_suspend` of `Task::Awaiter` -/
  | coAwait
  | postTo
  /-- `wk_cb`, the callback of an awaiter, or somebody with the handle -/
  | resume
  | suspend
  | coReturn (rvalue : Bool)
  /-- the destructor of a local throws behind `co_return`, and the body catches it -/
  | caught
  | finalSuspend
  | unhandledException
  /-- `await_resume` of `Task::Awaiter` -/
  | awaitResume (throws : Bool)
  /-- by the destructor of `Task`, or by the workqueue -/
  | destroy
  deriving DecidableEq, Repr

def step (useException : Bool) (s : State) : Action → Option State
  | .coAwait =>
      if s.stage = .initial ∧ s.detached = false then
        some
          { s with
            stage := .running
            promise := { s.promise with mPrevious := true }
            life := { s.life with awaited := true } }
      else none
  | .postTo =>
      if s.stage = .initial ∧ s.detached = false then some { s with detached := true } else none
  | .resume =>
      if s.stage = .initial ∨ s.stage = .suspended then some { s with stage := .running } else none
  | .suspend => if s.stage = .running then some { s with stage := .suspended } else none
  | .coReturn _ =>
      if s.stage = .running then
        some
          { s with
            stage := .leaving
            promise := s.promise.returnValue
            life := { s.life with returns := s.life.returns + 1 } }
      else none
  | .caught => if s.stage = .leaving then some { s with stage := .running } else none
  | .finalSuspend =>
      if s.stage = .leaving then
        some { s with stage := .final, life := { s.life with finished := true } }
      else none
  | .unhandledException =>
      if s.stage = .running ∨ s.stage = .leaving then
        some
          { s with
            stage := .final
            promise := s.promise.unhandledException useException
            life := { s.life with finished := true, escaped := true } }
      else none
  | .awaitResume throws =>
      -- `FinalAwaiter` goes on with the coroutine that waits
      if s.stage = .final ∧ s.promise.mPrevious = true then
        some
          { s with
            stage := .taken
            promise := s.promise.result useException throws
            life := { s.life with moveThrew := throws } }
      else none
  | .destroy =>
      if s.stage = .initial ∨ s.stage = .suspended ∨ s.stage = .taken ∨
          s.stage = .final ∧ s.promise.mPrevious = false then
        some { s with stage := .destroyed }
      else none

/-- One coroutine, as its `Task` is returned. -/
def frame (useException : Bool) : Machine State Action where
  init s := s = {}
  step := step useException

/-! ## What is to hold -/

/-- `result` has moved from objects only, and each object was destroyed once. -/
structure DestroyedOnce (u : Uninitialized) : Prop where
  defined : u.undefined = false
  once : ∀ object < u.built, u.destroyed.count object = 1

/-- Nothing was returned, and no exception was awaited without `USE_EXCEPTION`; or one value was
returned and awaited, no exception was reported in its place, and it could be moved. -/
def Life.Consumed (l : Life) (useException : Bool) : Prop :=
  l.returns = 0 ∧ (l.awaited = true → l.finished = true → useException = true) ∨
    l.returns = 1 ∧ l.awaited = true ∧ l.finished = true ∧
      ¬ (useException = true ∧ l.escaped = true) ∧ l.moveThrew = false

instance (l : Life) (useException : Bool) : Decidable (l.Consumed useException) :=
  inferInstanceAs (Decidable (_ ∨ _))

/-! ## The storage behind a life -/

/-- The storage behind so many returns. -/
def returned (n : Nat) : Uninitialized := Uninitialized.emplace^[n] {}

theorem returned_succ (n : Nat) : returned (n + 1) = (returned n).emplace :=
  Function.iterate_succ_apply' _ n _

/-- The last object is there, and none was destroyed. -/
theorem returned_eq (n : Nat) : returned n =
    { mValue := if n = 0 then none else some (n - 1), built := n } := by
  induction n with
  | zero => rfl
  | succ n ih =>
      rw [returned_succ, ih]
      rfl

/-- **The invariant**: the storage is that of the returns until the owner has called `result`. -/
structure Inv (useException : Bool) (s : State) : Prop where
  previous : s.promise.mPrevious = s.life.awaited
  exception : s.promise.mException = (useException && s.life.escaped)
  before : s.stage ≠ .taken → s.stage ≠ .destroyed →
    s.promise.mResult = returned s.life.returns ∧ s.life.moveThrew = false
  finished : s.stage = .final ∨ s.stage = .taken → s.life.finished = true
  going : s.stage ≠ .final → s.stage ≠ .taken → s.stage ≠ .destroyed → s.life.finished = false
  leaving : s.stage = .leaving → s.life.returns ≠ 0
  ended : s.life.finished = true → s.life.returns ≠ 0 ∨ s.life.escaped = true
  taken : s.stage = .taken → s.life.awaited = true
  behind : s.stage = .taken ∨ s.stage = .destroyed → s.promise.mResult =
    if s.life.awaited = true ∧ s.life.finished = true ∧ ¬ (useException && s.life.escaped) = true then
      (returned s.life.returns).move s.life.moveThrew
    else returned s.life.returns

variable {useException : Bool} {s t : State}

theorem inv_init : Inv useException {} where
  previous := rfl
  exception := (Bool.and_false _).symm
  before _ _ := ⟨rfl, rfl⟩
  finished := by rintro (stage | stage) <;> cases stage
  going _ _ _ := rfl
  leaving stage := by cases stage
  ended finished := by cases finished
  taken stage := by cases stage
  behind := by rintro (stage | stage) <;> cases stage

/-- A step within the body changes the stage alone. -/
theorem Inv.move (inv : Inv useException s) {stage : Stage}
    (inBody : s.stage = .initial ∨ s.stage = .running ∨ s.stage = .leaving ∨ s.stage = .suspended)
    (goes : stage = .initial ∨ stage = .running ∨ stage = .suspended) (detached : Bool) :
    Inv useException { s with stage, detached } := by
  have going : s.stage ≠ .final ∧ s.stage ≠ .taken ∧ s.stage ≠ .destroyed := by
    rcases inBody with here | here | here | here <;> rw [here] <;> decide
  have goesOn : stage ≠ .final ∧ stage ≠ .taken ∧ stage ≠ .destroyed ∧ stage ≠ .leaving := by
    rcases goes with rfl | rfl | rfl <;> decide
  exact {
    previous := inv.previous
    exception := inv.exception
    before := fun _ _ => inv.before going.2.1 going.2.2
    finished := fun ends => (ends.elim goesOn.1 goesOn.2.1).elim
    going := fun _ _ _ => inv.going going.1 going.2.1 going.2.2
    leaving := fun leaves => (goesOn.2.2.2 leaves).elim
    ended := inv.ended
    taken := fun here => (goesOn.2.1 here).elim
    behind := fun ends => (ends.elim goesOn.2.1 goesOn.2.2.1).elim }

/-- **Every step keeps the invariant.** -/
theorem Inv.step (inv : Inv useException s) {a : Action}
    (step : ResultLife.step useException s a = some t) : Inv useException t := by
  cases a with
  | coAwait =>
      obtain ⟨⟨stage, -⟩, same⟩ := Option.ite_none_right_eq_some.mp step
      cases same
      have before := inv.before (by rw [stage]; decide) (by rw [stage]; decide)
      have going :=
        inv.going (by rw [stage]; decide) (by rw [stage]; decide) (by rw [stage]; decide)
      exact {
        previous := rfl
        exception := inv.exception
        before := fun _ _ => before
        finished := by rintro (stage | stage) <;> cases stage
        going := fun _ _ _ => going
        leaving := fun stage => by cases stage
        ended := inv.ended
        taken := fun stage => by cases stage
        behind := by rintro (stage | stage) <;> cases stage }
  | postTo =>
      obtain ⟨⟨stage, -⟩, same⟩ := Option.ite_none_right_eq_some.mp step
      cases same
      exact inv.move (.inl stage) (.inl stage) true
  | resume =>
      obtain ⟨stage, same⟩ := Option.ite_none_right_eq_some.mp step
      cases same
      exact inv.move (stage.elim .inl fun here => .inr (.inr (.inr here))) (.inr (.inl rfl)) _
  | suspend =>
      obtain ⟨stage, same⟩ := Option.ite_none_right_eq_some.mp step
      cases same
      exact inv.move (.inr (.inl stage)) (.inr (.inr rfl)) _
  | caught =>
      obtain ⟨stage, same⟩ := Option.ite_none_right_eq_some.mp step
      cases same
      exact inv.move (.inr (.inr (.inl stage))) (.inr (.inl rfl)) _
  | coReturn rvalue =>
      obtain ⟨stage, same⟩ := Option.ite_none_right_eq_some.mp step
      cases same
      obtain ⟨result, calm⟩ := inv.before (by rw [stage]; decide) (by rw [stage]; decide)
      have going :=
        inv.going (by rw [stage]; decide) (by rw [stage]; decide) (by rw [stage]; decide)
      exact {
        previous := inv.previous
        exception := inv.exception
        before := fun _ _ => ⟨by rw [Promise.returnValue, result, returned_succ], calm⟩
        finished := by rintro (stage | stage) <;> cases stage
        going := fun _ _ _ => going
        leaving := fun _ => Nat.succ_ne_zero _
        ended := fun finished => by
          rw [going] at finished
          cases finished
        taken := fun stage => by cases stage
        behind := by rintro (stage | stage) <;> cases stage }
  | finalSuspend =>
      obtain ⟨stage, same⟩ := Option.ite_none_right_eq_some.mp step
      cases same
      have before := inv.before (by rw [stage]; decide) (by rw [stage]; decide)
      exact {
        previous := inv.previous
        exception := inv.exception
        before := fun _ _ => before
        finished := fun _ => rfl
        going := fun other => (other rfl).elim
        leaving := fun stage => by cases stage
        ended := fun _ => .inl (inv.leaving stage)
        taken := fun stage => by cases stage
        behind := by rintro (stage | stage) <;> cases stage }
  | unhandledException =>
      obtain ⟨stage, same⟩ := Option.ite_none_right_eq_some.mp step
      cases same
      have going : s.stage ≠ .taken ∧ s.stage ≠ .destroyed := by
        rcases stage with here | here <;> rw [here] <;> decide
      have before := inv.before going.1 going.2
      have parts : (s.promise.unhandledException useException).mPrevious = s.promise.mPrevious ∧
          (s.promise.unhandledException useException).mResult = s.promise.mResult := by
        unfold Promise.unhandledException
        split
        · exact ⟨rfl, rfl⟩
        · exact ⟨rfl, rfl⟩
      exact {
        previous := parts.1.trans inv.previous
        exception := by
          unfold Promise.unhandledException
          split
          · next on => simp [on]
          · next off => simp [inv.exception, off]
        before := fun _ _ => ⟨parts.2.trans before.1, before.2⟩
        finished := fun _ => rfl
        going := fun other => (other rfl).elim
        leaving := fun stage => by cases stage
        ended := fun _ => .inr rfl
        taken := fun stage => by cases stage
        behind := by rintro (stage | stage) <;> cases stage }
  | awaitResume throws =>
      obtain ⟨⟨stage, previous⟩, same⟩ := Option.ite_none_right_eq_some.mp step
      cases same
      obtain ⟨result, calm⟩ := inv.before (by rw [stage]; decide) (by rw [stage]; decide)
      have finished := inv.finished (.inl stage)
      have awaited : s.life.awaited = true := inv.previous.symm.trans previous
      have reports : (useException && s.promise.mException) = (useException && s.life.escaped) := by
        rw [inv.exception, ← Bool.and_assoc, Bool.and_self]
      have parts : (s.promise.result useException throws).mPrevious = s.promise.mPrevious ∧
          (s.promise.result useException throws).mException = s.promise.mException := by
        unfold Promise.result
        split
        · exact ⟨rfl, rfl⟩
        · exact ⟨rfl, rfl⟩
      exact {
        previous := parts.1.trans inv.previous
        exception := parts.2.trans inv.exception
        before := fun other => (other rfl).elim
        finished := fun _ => finished
        going := fun _ other => (other rfl).elim
        leaving := fun stage => by cases stage
        ended := inv.ended
        taken := fun _ => awaited
        behind := fun _ => by
          unfold Promise.result
          rw [reports]
          by_cases reported : (useException && s.life.escaped) = true
          · rw [if_pos reported, if_neg fun all => all.2.2 reported]
            exact result
          · rw [if_neg reported, if_pos ⟨awaited, finished, reported⟩]
            exact congrArg (Uninitialized.move · throws) result }
  | destroy =>
      obtain ⟨stage, same⟩ := Option.ite_none_right_eq_some.mp step
      cases same
      refine {
        previous := inv.previous
        exception := inv.exception
        before := fun _ other => (other rfl).elim
        finished := by rintro (stage | stage) <;> cases stage
        going := fun _ _ other => (other rfl).elim
        leaving := fun stage => by cases stage
        ended := inv.ended
        taken := fun stage => by cases stage
        behind := fun _ => ?_ }
      by_cases taken : s.stage = .taken
      · exact inv.behind (.inl taken)
      · have alive : s.stage ≠ .destroyed := by
          rcases stage with here | here | here | ⟨here, -⟩ <;> rw [here] <;> decide
        obtain ⟨result, -⟩ := inv.before taken alive
        rw [if_neg]
        · exact result
        · rintro ⟨awaited, finished, -⟩
          rcases stage with here | here | here | ⟨-, alone⟩
          · rw [inv.going (by rw [here]; decide) taken alive] at finished
            cases finished
          · rw [inv.going (by rw [here]; decide) taken alive] at finished
            cases finished
          · exact taken here
          · rw [inv.previous.symm.trans alone] at awaited
            cases awaited

theorem inv_of_reachable (run : (frame useException).Reachable s) : Inv useException s :=
  run.invariant (fun _ start => start ▸ inv_init) fun _ _ _ inv _ step => inv.step step

/-! ## Results -/

/-- Without a call of `result` just those lives are in order that have returned nothing. -/
theorem destroyedOnce_returned (n : Nat) : DestroyedOnce (returned n) ↔ n = 0 := by
  rw [returned_eq]
  constructor
  · intro once
    by_contra some'
    have lost := once.once 0 (Nat.pos_of_ne_zero some')
    cases lost
  · rintro rfl
    exact ⟨rfl, fun object inside => (Nat.not_lt_zero object inside).elim⟩

/-- With a call, those that have returned once, with a move that does not throw. -/
theorem destroyedOnce_move (n : Nat) (throws : Bool) :
    DestroyedOnce ((returned n).move throws) ↔ n = 1 ∧ throws = false := by
  rw [returned_eq, Uninitialized.move]
  constructor
  · intro once
    cases n with
    | zero => cases once.defined
    | succ n =>
        cases throws with
        | true =>
            have lost := once.once 0 (Nat.succ_pos n)
            cases lost
        | false =>
            -- the last object is the first one
            have first : [n].count 0 = 1 := once.once 0 (Nat.succ_pos n)
            have zero : n = 0 := by
              by_contra other
              rw [List.count_singleton, if_neg (by simpa using other)] at first
              cases first
            rw [zero]
            exact ⟨rfl, rfl⟩
  · rintro ⟨rfl, rfl⟩
    refine ⟨rfl, fun object inside => ?_⟩
    rw [Nat.lt_one_iff.mp inside]
    rfl

/-- **Results are destroyed once** in exactly the lives that consume them. -/
theorem destroyedOnce_iff (run : (frame useException).Reachable s) (gone : s.stage = .destroyed) :
    DestroyedOnce s.promise.mResult ↔ s.life.Consumed useException := by
  have inv := inv_of_reachable run
  rw [inv.behind (.inr gone), Life.Consumed]
  by_cases called : s.life.awaited = true ∧ s.life.finished = true ∧
      ¬ (useException && s.life.escaped) = true
  · rw [if_pos called, destroyedOnce_move]
    obtain ⟨awaited, finished, unreported⟩ := called
    rw [Bool.and_eq_true] at unreported
    constructor
    · rintro ⟨one, calm⟩
      exact .inr ⟨one, awaited, finished, unreported, calm⟩
    · rintro (⟨zero, on⟩ | ⟨one, -, -, -, calm⟩)
      · have escaped := (inv.ended finished).resolve_left (not_not.mpr zero)
        exact (unreported ⟨on awaited finished, escaped⟩).elim
      · exact ⟨one, calm⟩
  · rw [if_neg called, destroyedOnce_returned]
    constructor
    · intro zero
      refine .inl ⟨zero, fun awaited finished => ?_⟩
      by_contra off
      exact called ⟨awaited, finished, by simp [off]⟩
    · rintro (⟨zero, -⟩ | ⟨-, awaited, finished, unreported, -⟩)
      · exact zero
      · exact (called ⟨awaited, finished, by rwa [Bool.and_eq_true]⟩).elim

/-! ## On the workqueue -/

section Posted

variable {T O : Type*} [DecidableEq T] [DecidableEq O] {w w' : Worker.State T O}

/-- What a step on the workqueue means for the coroutine. -/
inductive Moves (w w' : Worker.State T O) : Prop
  | rest : w'.coro = w.coro → w'.destroys = w.destroys → Moves w w'
  | resume : w.coro = .initial ∨ w.coro = .suspended → w.destroys = 0 → w'.coro = .running →
      w'.destroys = 0 → Moves w w'
  | suspend : w.coro = .running → w.destroys = 0 → w'.coro = .suspended → w'.destroys = 0 →
      Moves w w'
  | final : w.coro = .running → w.destroys = 0 → w'.coro = .final → w'.destroys = 0 → Moves w w'
  | destroy : w.coro = .final → w.destroys = 0 → w'.destroys = 1 → Moves w w'

theorem moves_of_step (owned : Worker.Owned w) {a : Worker.Action T O}
    (step : Worker.step w a = some w') : Moves w w' := by
  cases a with
  | postOther o =>
      cases step
      exact .rest rfl rfl
  | workOnce t =>
      simp only [Worker.step] at step
      split at step
      · split at step
        · cases step
        · cases step
          exact .rest rfl rfl
        · split at step
          · cases step
            exact .rest rfl rfl
          · cases step
            exact .rest rfl rfl
      · cases step
  | setRunning t | clearRunning t | testDone t =>
      obtain ⟨-, same⟩ := Option.ite_none_right_eq_some.mp step
      cases same
      exact .rest rfl rfl
  | resume t =>
      obtain ⟨here, step⟩ := Option.ite_none_right_eq_some.mp step
      have alive := owned.alive (by rw [here]; decide : w.pc t ≠ .idle)
      split at step
      · cases step
        exact .rest rfl rfl
      · next more =>
          cases step
          exact .resume (.inl ((owned.early t (.inr here)).2.resolve_right more)) alive rfl alive
  | callback t =>
      obtain ⟨⟨here, suspended⟩, step⟩ := Option.ite_none_right_eq_some.mp step
      cases step
      have alive : w.destroys = 0 := by
        rcases owned.destroyed with zero | ⟨-, final, -⟩
        · exact zero
        · rw [suspended] at final
          cases final
      exact .resume (.inr suspended) alive rfl alive
  | suspend t =>
      simp only [Worker.step] at step
      split at step
      · next wk here =>
          cases step
          have alive := owned.alive (by rw [here]; simp : w.pc t ≠ .idle)
          exact .suspend (owned.body t wk here) alive rfl alive
      · cases step
  | finalSuspend t =>
      simp only [Worker.step] at step
      split at step
      · next wk here =>
          cases step
          have alive := owned.alive (by rw [here]; simp : w.pc t ≠ .idle)
          exact .final (owned.body t wk here) alive rfl alive
      · cases step
  | awaitSuspend t | userOnCompleted t | mark t | post t =>
      simp only [Worker.step] at step
      split at step
      · cases step
        exact .rest rfl rfl
      · cases step
  | check t =>
      simp only [Worker.step] at step
      split at step
      · split at step
        · cases step
          exact .rest rfl rfl
        · cases step
          exact .rest rfl rfl
      · cases step
  | destroy t =>
      obtain ⟨here, step⟩ := Option.ite_none_right_eq_some.mp step
      cases step
      have alive := owned.alive (by rw [here]; decide : w.pc t ≠ .idle)
      exact .destroy (owned.destroy t here).1 alive (congrArg (· + 1) alive)
  | destroyOnExecutor t =>
      obtain ⟨here, -⟩ := Option.ite_none_right_eq_some.mp step
      exact (owned.node t here).elim

/-- Where a coroutine stands. -/
def stageOf (coro : Worker.Coro) : Stage :=
  match coro with
  | .initial => .initial
  | .running => .running
  | .suspended => .suspended
  | .final => .final

/-- A coroutine on the workqueue, whose body ends with a `co_return` if `returns` says so, and with
an exception otherwise. -/
structure Follows (returns : Bool) (w : Worker.State T O) (s : State) : Prop where
  stage : w.destroys = 0 → s.stage = stageOf w.coro
  gone : w.destroys ≠ 0 → s.stage = .destroyed ∧ w.coro = .final
  alone : s.promise.mPrevious = false
  ends : s.life.returns = if w.coro = .final ∧ returns then 1 else 0

/-- **A coroutine that `post_to` has started lives like this.** -/
theorem follows_of_via (useException returns : Bool) (run : Worker.machine.Via Worker.Apart w) :
    ∃ s, (frame useException).Reachable s ∧ Follows returns w s := by
  induction run with
  | init start =>
      obtain ⟨-, -, -, -, -, initial, -, zero, -⟩ := start
      refine ⟨{ ({} : State) with detached := true },
        .step (a := .postTo) (.init rfl) trivial rfl, ?_⟩
      exact {
        stage := fun _ => by rw [initial]; rfl
        gone := fun some' => (some' zero).elim
        alone := rfl
        ends := by rw [initial]; rfl }
  | @step w w' a before apart step ih =>
      obtain ⟨s, reached, follows⟩ := ih
      have alone := follows.alone
      have ends := follows.ends
      cases moves_of_step (Worker.owned_of_via before) step with
      | rest coro destroys =>
          refine ⟨s, reached, ?_⟩
          exact {
            stage := fun zero => by rw [coro]; exact follows.stage (destroys ▸ zero)
            gone := fun some' => by rw [coro]; exact follows.gone (destroys ▸ some')
            alone := alone
            ends := by rw [coro]; exact ends }
      | resume waits zero running alive =>
          have stage : s.stage = .initial ∨ s.stage = .suspended := by
            rw [follows.stage zero]
            rcases waits with here | here
            · rw [here]
              exact .inl rfl
            · rw [here]
              exact .inr rfl
          have unfinished : w.coro ≠ .final := by
            rcases waits with here | here <;> rw [here] <;> decide
          refine ⟨_, .step (a := .resume) reached trivial (if_pos stage), ?_⟩
          exact {
            stage := fun _ => by rw [running]; rfl
            gone := fun some' => (some' alive).elim
            alone := alone
            ends := by
              rw [if_neg fun both => unfinished both.1] at ends
              rw [running]
              exact ends }
      | suspend here zero suspended alive =>
          have stage : s.stage = .running := by rw [follows.stage zero, here]; rfl
          refine ⟨_, .step (a := .suspend) reached trivial (if_pos stage), ?_⟩
          exact {
            stage := fun _ => by rw [suspended]; rfl
            gone := fun some' => (some' alive).elim
            alone := alone
            ends := by
              rw [here] at ends
              rw [suspended]
              exact ends }
      | final here zero final alive =>
          have stage : s.stage = .running := by rw [follows.stage zero, here]; rfl
          have none' : s.life.returns = 0 := by
            rw [here] at ends
            exact ends
          cases returns with
          | true =>
              refine ⟨_, .step (a := .finalSuspend)
                (.step (a := .coReturn true) reached trivial (if_pos stage)) trivial rfl, ?_⟩
              exact {
                stage := fun _ => by rw [final]; rfl
                gone := fun some' => (some' alive).elim
                alone := alone
                ends := by
                  rw [final]
                  exact congrArg (· + 1) none' }
          | false =>
              refine ⟨_, .step (a := .unhandledException) reached trivial (if_pos (.inl stage)), ?_⟩
              exact {
                stage := fun _ => by rw [final]; rfl
                gone := fun some' => (some' alive).elim
                alone := by
                  unfold Promise.unhandledException
                  split
                  · exact alone
                  · exact alone
                ends := by
                  rw [final]
                  exact none' }
      | destroy final zero gone =>
          have stage : s.stage = .final := by rw [follows.stage zero, final]; rfl
          have same : w'.coro = .final := by
            rcases (Worker.owned_of_via (before.step apart step)).destroyed
              with none' | ⟨-, coro, -⟩
            · omega
            · exact coro
          refine ⟨_, .step (a := .destroy) reached trivial
            (if_pos (.inr (.inr (.inr ⟨stage, alone⟩)))), ?_⟩
          exact {
            stage := fun none' => by omega
            gone := fun _ => ⟨rfl, same⟩
            alone := alone
            ends := by
              rw [final] at ends
              rw [same]
              exact ends }

/-- **The value that a posted coroutine returns is never destroyed**: the frame is destroyed by the
workqueue, with the value in it. -/
theorem posted_lost (useException : Bool) (run : Worker.machine.Via Worker.Apart w)
    (gone : w.destroys = 1) :
    ∃ s, (frame useException).Reachable s ∧ s.stage = .destroyed ∧
      s.promise.mResult = returned 1 := by
  obtain ⟨s, reached, follows⟩ := follows_of_via useException true run
  obtain ⟨stage, final⟩ := follows.gone (by omega)
  have inv := inv_of_reachable reached
  have alone : s.life.awaited ≠ true := by
    rw [← inv.previous, follows.alone]
    decide
  have ends := follows.ends
  rw [if_pos ⟨final, rfl⟩] at ends
  refine ⟨s, reached, stage, ?_⟩
  rw [inv.behind (.inr stage), if_neg fun all => alone all.1, ends]

end Posted

/-! ## Lives -/

namespace Example

/-- A value that is awaited. -/
theorem destroyedOnce_iff_awaited : ∃ s : State, s.stage = .destroyed ∧
    DestroyedOnce s.promise.mResult ∧ s.promise.mResult.built = 1 := by
  obtain ⟨s, run, gone, consumed, built⟩ : ∃ s : State,
      (frame true).exec {} [.coAwait, .suspend, .resume, .coReturn true, .finalSuspend,
        .awaitResume false, .destroy] = some s ∧ s.stage = .destroyed ∧ s.life.Consumed true ∧
        s.promise.mResult.built = 1 := ⟨_, rfl, rfl, by decide, rfl⟩
  exact ⟨s, gone, (destroyedOnce_iff (Machine.Via.exec (.init rfl) run) gone).mpr consumed, built⟩

/-- **The value of a posted coroutine is not destroyed, and an exception that is awaited without
`USE_EXCEPTION` has the owner take a value that was never constructed.** -/
theorem not_destroyedOnce :
    (¬ ∀ s, (frame true).Reachable s → s.stage = .destroyed → DestroyedOnce s.promise.mResult) ∧
      ¬ ∀ s, (frame false).Reachable s → s.stage = .destroyed →
        DestroyedOnce s.promise.mResult := by
  constructor
  · intro always
    obtain ⟨s, run, gone, built, destroyed⟩ : ∃ s : State,
        (frame true).exec {} [.postTo, .resume, .coReturn true, .finalSuspend, .destroy] = some s ∧
          s.stage = .destroyed ∧ s.promise.mResult.built = 1 ∧ s.promise.mResult.destroyed = [] :=
      ⟨_, rfl, rfl, rfl, rfl⟩
    have once := (always s (Machine.Via.exec (.init rfl) run) gone).once 0 (by omega)
    rw [destroyed] at once
    cases once
  · intro always
    obtain ⟨s, run, gone, undefined⟩ : ∃ s : State,
        (frame false).exec {} [.coAwait, .unhandledException, .awaitResume false, .destroy] =
          some s ∧ s.stage = .destroyed ∧ s.promise.mResult.undefined = true :=
      ⟨_, rfl, rfl, rfl⟩
    have defined := (always s (Machine.Via.exec (.init rfl) run) gone).defined
    rw [undefined] at defined
    cases defined

end Example

end CoWq.ResultLife
