import CoWq.Lib.Dialogue
import CoWq.Lib.Machine
import Mathlib.Data.Fintype.EquivFin

/-!
# Coroutines that await coroutines

One coroutine on an executor, and the frames of the coroutines that it awaits and that those
await in turn.  Control goes from frame to frame by symmetric transfer.

* `Body`: what a coroutine does; `Body.direct`: the same program without frames.
* `Frame`, `Action`, `step`, `machine`: the promises with the code's functions.
* `Stands`: the frames are a chain of callers below the one that runs or waits.
* `runs_as_called`: events, answers and the result are those of the direct program, nothing is
  read that is not there, and no frame stays behind.
-/

namespace CoWq.CallChain

variable {E A V X H : Type*}

/-! ## The code -/

/-- What a coroutine does up to its end. -/
inductive Body (E A V X : Type*)
  | coReturn (value : V)
  /-- an exception leaves the body -/
  | throws (exception : X)
  /-- `co_await` of an awaiter that asks the environment for something -/
  | await (e : E) (next : A → Body E A V X)
  /-- `co_await` of a new `Task`; what `result` throws, the caller may catch -/
  | call (callee : Body E A V X) (next : Except X V → Body E A V X)

/-- The body without frames: a call is a call. -/
def Body.direct : Body E A V X → Dialogue E A (Except X V)
  | coReturn value => .done (.ok value)
  | throws exception => .done (.error exception)
  | await e next => .ask e fun a => (next a).direct
  | call callee next => callee.direct.bind fun outcome => (next outcome).direct

/-- Without `USE_EXCEPTION`, no exception leaves a coroutine. -/
def Body.Kept (useException : Bool) : Body E A V X → Prop
  | coReturn _ => True
  | throws _ => useException = true
  | await _ next => ∀ a, (next a).Kept useException
  | call callee next => callee.Kept useException ∧ ∀ outcome, (next outcome).Kept useException

/-- Where a coroutine is. -/
inductive Point (E A V X H : Type*)
  /-- it goes on with this body when it is resumed -/
  | body (b : Body E A V X)
  /-- suspended in another awaiter -/
  | awaiting (e : E) (next : A → Body E A V X)
  /-- suspended in the `Task::Awaiter` with this `mCoroutine` -/
  | calling (mCoroutine : H) (next : Except X V → Body E A V X)
  /-- at the final suspend -/
  | final

/-- A coroutine's frame, with its promise. -/
structure Frame (E A V X H : Type*) where
  point : Point E A V X H
  mPrevious : Option H := none
  /-- `mOnCompleted` is set -/
  mOnCompleted : Bool := false
  mResult : Option V := none
  mException : Option X := none

structure State (E A V X H : Type*) where
  frames : H → Option (Frame E A V X H)
  /-- the coroutine that has the control; `none` is the executor -/
  running : Option H
  mallocCnt : Nat := 0
  freeCnt : Nat := 0
  /-- how often `on_completed` was called -/
  completed : Nat := 0
  /-- what was asked, with the answers -/
  log : List (E × A) := []
  /-- something was used that is not there -/
  undefined : Bool := false

section Code

variable [DecidableEq H]

/-- Another frame at an address. -/
def State.put (s : State E A V X H) (h : H) (f : Option (Frame E A V X H)) : State E A V X H :=
  { s with frames := Function.update s.frames h f }

/-- `operator new` of the promise and `initial_suspend` -/
def State.alloc (s : State E A V X H) (h : H) (f : Frame E A V X H) : State E A V X H :=
  { s.put h (some f) with mallocCnt := s.mallocCnt + 1 }

/-- `destroy`, with `operator delete` of the promise -/
def State.destroy (s : State E A V X H) (h : H) : State E A V X H :=
  { s.put h none with freeCnt := s.freeCnt + 1 }

/-- `FinalAwaiter::await_suspend`: `on_completed`, and the control to `mPrevious` or to nobody. -/
def State.finalSuspend (s : State E A V X H) (h : H) (f : Frame E A V X H) : State E A V X H :=
  { s.put h (some { f with point := .final }) with
    completed := if f.mOnCompleted then s.completed + 1 else s.completed
    running := f.mPrevious }

/-- `Promise::unhandled_exception` -/
def Frame.unhandledException (useException : Bool) (f : Frame E A V X H) (exception : X) :
    Frame E A V X H :=
  if useException then { f with mException := some exception } else f

/-- `Promise::result`; `none` if there is no object to move. -/
def Frame.result (useException : Bool) (f : Frame E A V X H) : Option (Except X V) :=
  match (if useException then f.mException else none) with
  | some exception => some (.error exception)
  | none => f.mResult.map .ok

inductive Action (A H : Type*)
  /-- the coroutine that has the control goes on; a `Task` that it starts is allocated at `addr` -/
  | run (addr : H)
  /-- the awaiter in which `h` is suspended resumes it -/
  | answer (h : H) (a : A)

/-- What the coroutine `h` with the frame `f` does. -/
def goOn (useException : Bool) (s : State E A V X H) (h : H) (f : Frame E A V X H) (addr : H) :
    Option (State E A V X H) :=
  match f.point with
  | .body (.coReturn value) => some (s.finalSuspend h { f with mResult := some value })
  | .body (.throws exception) =>
      some (s.finalSuspend h (f.unhandledException useException exception))
  | .body (.await e next) =>
      some { s.put h (some { f with point := .awaiting e next }) with running := none }
  | .body (.call callee next) =>
      if (s.frames addr).isNone then
        -- `await_suspend` of `Task::Awaiter` sets `mPrevious` and starts the new coroutine
        some
          { (s.put h (some { f with point := .calling addr next })).alloc addr
              { point := .body callee, mPrevious := some h } with
            running := some addr }
      else none
  | .calling mCoroutine next =>
      match (s.frames mCoroutine).bind (Frame.result useException) with
      -- `await_resume`, and the `Task` is destroyed behind it
      | some outcome =>
          some ((s.destroy mCoroutine).put h (some { f with point := .body (next outcome) }))
      | none => some { s with undefined := true }
  | .awaiting _ _ => some { s with undefined := true }
  | .final => some { s with undefined := true }

def step (useException : Bool) (s : State E A V X H) : Action A H → Option (State E A V X H)
  | .run addr =>
      match s.running with
      | none => none
      | some h =>
          match s.frames h with
          | none => some { s with undefined := true }
          | some f => goOn useException s h f addr
  | .answer h a =>
      if s.running.isNone then
        match s.frames h with
        | none => none
        | some f =>
            match f.point with
            | .awaiting e next =>
                some
                  { s.put h (some { f with point := .body (next a) }) with
                    running := some h
                    log := s.log ++ [(e, a)] }
            | _ => none
      else none

/-- The coroutine at `root`, resumed for the first time. -/
def start (root : H) (b : Body E A V X) : State E A V X H where
  frames := Function.update (fun _ => none) root (some { point := .body b, mOnCompleted := true })
  running := some root
  mallocCnt := 1

def machine (useException : Bool) (root : H) (b : Body E A V X) :
    Machine (State E A V X H) (Action A H) where
  init s := s = start root b
  step := step useException

end Code

/-! ## Frames on a stack -/

/-- The frame of a coroutine that has not ended, with its caller. -/
def Frame.live (p : Option H) (point : Point E A V X H) : Frame E A V X H :=
  { point := point, mPrevious := p, mOnCompleted := p.isNone }

/-- The frames that there are, the innermost first. -/
structure Holds (s : State E A V X H) (stack : List (H × Frame E A V X H)) : Prop where
  nodup : (stack.map Prod.fst).Nodup
  frames : ∀ h f, s.frames h = some f ↔ (h, f) ∈ stack
  counts : s.mallocCnt = s.freeCnt + stack.length
  defined : s.undefined = false

/-- The coroutine at `h` has the control and goes on with `b`. -/
structure Runs (s : State E A V X H) (h : H) (p : Option H) (b : Body E A V X)
    (stack : List (H × Frame E A V X H)) : Prop where
  holds : Holds s ((h, Frame.live p (.body b)) :: stack)
  running : s.running = some h
  completed : s.completed = 0

/-- The coroutine at `h` is suspended in an awaiter. -/
structure Waits (s : State E A V X H) (h : H) (p : Option H) (e : E) (next : A → Body E A V X)
    (stack : List (H × Frame E A V X H)) : Prop where
  holds : Holds s ((h, Frame.live p (.awaiting e next)) :: stack)
  running : s.running = none
  completed : s.completed = 0

/-- The coroutine at `h` is at its final suspend and has passed the control on. -/
structure Ended (useException : Bool) (s : State E A V X H) (h : H) (p : Option H)
    (outcome : Except X V) (stack : List (H × Frame E A V X H)) : Prop where
  frame : ∃ f, f.point = .final ∧ f.result useException = some outcome ∧
    Holds s ((h, f) :: stack)
  running : s.running = p
  completed : s.completed = if p.isNone then 1 else 0

variable {useException : Bool} {s t : State E A V X H} {h c addr root : H} {p : Option H}
  {f g : Frame E A V X H} {stack : List (H × Frame E A V X H)} {b callee : Body E A V X}
  {next : Except X V → Body E A V X} {outcome : Except X V}

theorem Holds.top (holds : Holds s ((h, f) :: stack)) : s.frames h = some f :=
  (holds.frames h f).mpr List.mem_cons_self

theorem Holds.free (holds : Holds s stack) (free : s.frames addr = none) :
    addr ∉ stack.map Prod.fst := by
  intro mem
  obtain ⟨⟨x, f⟩, there, rfl⟩ := List.mem_map.mp mem
  rw [(holds.frames x f).mpr there] at free
  cases free

/-- There is room for one more frame. -/
theorem Holds.room [DecidableEq H] [Infinite H] (holds : Holds s stack) :
    ∃ addr, s.frames addr = none := by
  obtain ⟨addr, fresh⟩ := Infinite.exists_notMem_finset (stack.map Prod.fst).toFinset
  refine ⟨addr, Option.eq_none_iff_forall_ne_some.mpr fun f here => fresh ?_⟩
  exact List.mem_toFinset.mpr (List.mem_map_of_mem ((holds.frames addr f).mp here))

section Frames

variable [DecidableEq H]

theorem Holds.put (holds : Holds s ((h, f) :: stack)) (g : Frame E A V X H) :
    Holds (s.put h (some g)) ((h, g) :: stack) where
  nodup := holds.nodup
  frames x k := by
    have apart : h ∉ stack.map Prod.fst := (List.nodup_cons.mp holds.nodup).1
    have other := holds.frames x k
    by_cases same : x = h
    · subst same
      have outside : (x, k) ∉ stack := fun mem => apart (List.mem_map_of_mem mem)
      simp [State.put, outside, eq_comm]
    · simpa [State.put, same] using other
  counts := holds.counts
  defined := holds.defined

theorem Holds.alloc (holds : Holds s stack) (free : s.frames addr = none)
    (g : Frame E A V X H) : Holds (s.alloc addr g) ((addr, g) :: stack) where
  nodup := List.nodup_cons.mpr ⟨holds.free free, holds.nodup⟩
  frames x k := by
    have other := holds.frames x k
    by_cases same : x = addr
    · subst same
      have outside : (x, k) ∉ stack := fun mem => holds.free free (List.mem_map_of_mem mem)
      simp [State.alloc, State.put, outside, eq_comm]
    · simpa [State.alloc, State.put, same] using other
  counts := by
    have counts := holds.counts
    simp only [State.alloc, State.put, List.length_cons]
    omega
  defined := holds.defined

theorem Holds.destroy (holds : Holds s ((c, f) :: stack)) : Holds (s.destroy c) stack where
  nodup := (List.nodup_cons.mp holds.nodup).2
  frames x k := by
    have apart : c ∉ stack.map Prod.fst := (List.nodup_cons.mp holds.nodup).1
    have other := holds.frames x k
    by_cases same : x = c
    · subst same
      have outside : (x, k) ∉ stack := fun mem => apart (List.mem_map_of_mem mem)
      simp [State.destroy, State.put, outside]
    · simpa [State.destroy, State.put, same] using other
  counts := by
    have counts := holds.counts
    simp only [State.destroy, State.put, List.length_cons] at counts ⊢
    omega
  defined := holds.defined

/-! ## One step -/

/-- A coroutine that comes to its end passes its outcome to its caller. -/
theorem Runs.finalSuspend (runs : Runs s h p b stack) (g : Frame E A V X H)
    (live : g.mPrevious = p ∧ g.mOnCompleted = p.isNone)
    (holds : g.result useException = some outcome) :
    Ended useException (s.finalSuspend h g) h p outcome stack where
  frame := by
    have put := runs.holds.put { g with point := .final }
    exact ⟨{ g with point := .final }, rfl, holds, put.nodup, put.frames, put.counts, put.defined⟩
  running := live.1
  completed := by simp [State.finalSuspend, live.2, runs.completed]

theorem Runs.coReturn {value : V} (runs : Runs s h p (.coReturn value) stack)
    (useException : Bool) (addr : H) :
    ∃ t, step useException s (.run addr) = some t ∧ t.log = s.log ∧
      Ended useException t h p (.ok value) stack := by
  let g : Frame E A V X H :=
    { Frame.live p (.body (.coReturn value)) with mResult := some value }
  refine ⟨s.finalSuspend h g, ?_, rfl, runs.finalSuspend g ⟨rfl, rfl⟩ ?_⟩
  · simp [step, runs.running, runs.holds.top, goOn, Frame.live, g]
  · simp [Frame.result, Frame.live, g]

theorem Runs.throws {exception : X} (runs : Runs s h p (.throws exception) stack)
    (kept : useException = true) (addr : H) :
    ∃ t, step useException s (.run addr) = some t ∧ t.log = s.log ∧
      Ended useException t h p (.error exception) stack := by
  let g : Frame E A V X H :=
    { Frame.live p (.body (.throws exception)) with mException := some exception }
  refine ⟨s.finalSuspend h g, ?_, rfl, runs.finalSuspend g ⟨rfl, rfl⟩ ?_⟩
  · simp [step, runs.running, runs.holds.top, goOn, Frame.live, Frame.unhandledException, kept, g]
  · simp [Frame.result, kept, g]

theorem Runs.await {e : E} {next : A → Body E A V X} (runs : Runs s h p (.await e next) stack)
    (useException : Bool) (addr : H) :
    ∃ t, step useException s (.run addr) = some t ∧ t.log = s.log ∧ Waits t h p e next stack := by
  have put := runs.holds.put (Frame.live p (.awaiting e next))
  refine ⟨{ s.put h (some (Frame.live p (.awaiting e next))) with running := none }, ?_, rfl,
    ⟨⟨put.nodup, put.frames, put.counts, put.defined⟩, rfl, runs.completed⟩⟩
  simp [step, runs.running, runs.holds.top, goOn, Frame.live]

theorem Runs.call (runs : Runs s h p (.call callee next) stack) (useException : Bool)
    (free : s.frames addr = none) :
    ∃ t, step useException s (.run addr) = some t ∧ t.log = s.log ∧
      Runs t addr (some h) callee ((h, Frame.live p (.calling addr next)) :: stack) := by
  have apart : addr ≠ h := by
    intro same
    rw [same, runs.holds.top] at free
    cases free
  have put := runs.holds.put (Frame.live p (.calling addr next))
  have still : (s.put h (some (Frame.live p (.calling addr next)))).frames addr = none := by
    simpa [State.put, apart] using free
  have alloc := put.alloc still (Frame.live (some h) (.body callee))
  refine ⟨{ (s.put h (some (Frame.live p (.calling addr next)))).alloc addr
    (Frame.live (some h) (.body callee)) with running := some addr }, ?_, rfl,
    ⟨⟨alloc.nodup, alloc.frames, alloc.counts, alloc.defined⟩, rfl, runs.completed⟩⟩
  simp [step, runs.running, runs.holds.top, goOn, Frame.live, free]

/-- No `Task` is started at an address that is in use. -/
theorem Runs.free_of_call (runs : Runs s h p (.call callee next) stack)
    (run : step useException s (.run addr) = some t) : s.frames addr = none := by
  by_contra used
  simp [step, runs.running, runs.holds.top, goOn, Frame.live, used] at run

/-- The caller takes the outcome out of the frame below it and destroys the frame. -/
theorem Ended.resume (ended : Ended useException s c (some h) outcome
    ((h, Frame.live p (.calling c next)) :: stack)) (addr : H) :
    ∃ t, step useException s (.run addr) = some t ∧ t.log = s.log ∧
      Runs t h p (next outcome) stack := by
  obtain ⟨f, -, result, holds⟩ := ended.frame
  have caller : s.frames h = some (Frame.live p (.calling c next)) :=
    (holds.frames _ _).mpr (List.mem_cons_of_mem _ List.mem_cons_self)
  have put := holds.destroy.put (Frame.live p (.body (next outcome)))
  refine ⟨(s.destroy c).put h (some (Frame.live p (.body (next outcome)))), ?_, rfl, put,
    ended.running, ended.completed⟩
  have read : Frame.result useException f = some outcome := result
  simp [step, ended.running, caller, goOn, Frame.live, holds.top, read]

theorem Waits.answer {e : E} {next : A → Body E A V X} (waits : Waits s h p e next stack)
    (useException : Bool) (a : A) :
    ∃ t, step useException s (.answer h a) = some t ∧ t.log = s.log ++ [(e, a)] ∧
      Runs t h p (next a) stack := by
  have put := waits.holds.put (Frame.live p (.body (next a)))
  refine ⟨{ s.put h (some (Frame.live p (.body (next a)))) with
    running := some h, log := s.log ++ [(e, a)] }, ?_, rfl,
    ⟨⟨put.nodup, put.frames, put.counts, put.defined⟩, rfl, waits.completed⟩⟩
  simp [step, waits.running, waits.holds.top, Frame.live]

/-! ## The chain of callers -/

/-- Below the coroutine at `h`: the callers up to the root, and what they do with an outcome. -/
inductive Callers (useException : Bool) (root : H) : H → Option H → List (H × Frame E A V X H) →
    (Except X V → Dialogue E A (Except X V)) → Prop
  | root : Callers useException root root none [] .done
  | call {c h : H} {p : Option H} {stack : List (H × Frame E A V X H)}
    {next : Except X V → Body E A V X} {later : Except X V → Dialogue E A (Except X V)} :
    Callers useException root h p stack later → (∀ outcome, (next outcome).Kept useException) →
    Callers useException root c (some h) ((h, Frame.live p (.calling c next)) :: stack)
      fun outcome => (next outcome).direct.bind later

/-- The frames stand for what is left of the direct program. -/
inductive Stands (useException : Bool) (root : H) (s : State E A V X H) :
    Dialogue E A (Except X V) → Prop
  | runs {h : H} {p : Option H} {stack : List (H × Frame E A V X H)} {b : Body E A V X}
    {later : Except X V → Dialogue E A (Except X V)} :
    Runs s h p b stack → Callers useException root h p stack later → b.Kept useException →
    Stands useException root s (b.direct.bind later)
  | waits {h : H} {p : Option H} {stack : List (H × Frame E A V X H)} {e : E}
    {next : A → Body E A V X} {later : Except X V → Dialogue E A (Except X V)} :
    Waits s h p e next stack → Callers useException root h p stack later →
    (∀ a, (next a).Kept useException) →
    Stands useException root s (.ask e fun a => (next a).direct.bind later)
  | ended {h : H} {p : Option H} {stack : List (H × Frame E A V X H)} {outcome : Except X V}
    {later : Except X V → Dialogue E A (Except X V)} :
    Ended useException s h p outcome stack → Callers useException root h p stack later →
    Stands useException root s (later outcome)

variable {later : Except X V → Dialogue E A (Except X V)} {rest : Dialogue E A (Except X V)}

omit [DecidableEq H] in
/-- Every caller is suspended in a `Task::Awaiter`. -/
theorem Callers.calling (callers : Callers useException root h p stack later) {x : H}
    (mem : (x, f) ∈ stack) : ∃ c next, f.point = .calling c next := by
  induction callers with
  | root => cases mem
  | call _ _ ih =>
      rcases List.mem_cons.mp mem with here | below
      · cases here
        exact ⟨_, _, rfl⟩
      · exact ih below

/-- What the coroutine with the control does leaves what is left of the direct program. -/
theorem Stands.run (stands : Stands useException root s rest)
    (run : step useException s (.run addr) = some t) :
    t.log = s.log ∧ Stands useException root t rest := by
  cases stands with
  | @runs h p stack b later runs callers kept =>
      cases b with
      | coReturn value =>
          obtain ⟨u, taken, log, ended⟩ := runs.coReturn useException addr
          cases taken.symm.trans run
          exact ⟨log, .ended ended callers⟩
      | throws exception =>
          obtain ⟨u, taken, log, ended⟩ := runs.throws kept addr
          cases taken.symm.trans run
          exact ⟨log, .ended ended callers⟩
      | await e next =>
          obtain ⟨u, taken, log, waits⟩ := runs.await useException addr
          cases taken.symm.trans run
          exact ⟨log, .waits waits callers kept⟩
      | call callee next =>
          obtain ⟨u, taken, log, inner⟩ :=
            runs.call useException (runs.free_of_call run)
          cases taken.symm.trans run
          have stands := Stands.runs inner (.call callers kept.2) kept.1
          rw [← Dialogue.bind_assoc] at stands
          exact ⟨log, stands⟩
  | waits waits => simp [step, waits.running] at run
  | ended ended callers =>
      cases callers with
      | root => simp [step, ended.running] at run
      | call callers kept =>
          obtain ⟨u, taken, log, runs⟩ := ended.resume addr
          cases taken.symm.trans run
          exact ⟨log, .runs runs callers (kept _)⟩

/-- An awaiter can only resume the coroutine that waits, with the question that is open. -/
theorem Stands.answer (stands : Stands useException root s rest) {a : A}
    (run : step useException s (.answer h a) = some t) :
    ∃ e next, rest = .ask e next ∧ t.log = s.log ++ [(e, a)] ∧
      Stands useException root t (next a) := by
  cases stands with
  | runs runs => simp [step, runs.running] at run
  | @waits x p stack e next later waits callers kept =>
      have same : h = x := by
        cases here : s.frames h with
        | none => simp [step, waits.running, here] at run
        | some f =>
            rcases List.mem_cons.mp ((waits.holds.frames h f).mp here) with top | below
            · cases top
              rfl
            · obtain ⟨c, next, calling⟩ := callers.calling below
              simp [step, waits.running, here, calling] at run
      subst same
      obtain ⟨u, taken, log, runs⟩ := waits.answer useException a
      cases taken.symm.trans run
      exact ⟨e, _, rfl, log, .runs runs callers (kept a)⟩
  | @ended x p stack outcome later ended callers =>
      cases callers with
      | call => simp [step, ended.running] at run
      | root =>
          cases here : s.frames h with
          | none => simp [step, ended.running, here] at run
          | some f =>
              obtain ⟨g, final, -, holds⟩ := ended.frame
              obtain ⟨rfl, rfl⟩ : h = root ∧ f = g := by simpa using (holds.frames h f).mp here
              simp [step, ended.running, here, final] at run

theorem stands_of_reachable (kept : b.Kept useException)
    (h : (machine useException root b).Reachable s) :
    ∃ rest, b.direct.Goes s.log rest ∧ Stands useException root s rest := by
  refine h.invariant (I := fun s => ∃ rest, b.direct.Goes s.log rest ∧
    Stands useException root s rest) ?_ ?_
  · intro s first
    cases first
    have holds : Holds (start root b) [(root, Frame.live none (.body b))] := by
      refine ⟨List.nodup_singleton root, fun x f => ?_, rfl, rfl⟩
      by_cases same : x = root
      · simp [start, Frame.live, same, eq_comm]
      · simp [start, same]
    have stands := Stands.runs ⟨holds, rfl, rfl⟩ .root kept
    rw [Dialogue.bind_done] at stands
    exact ⟨b.direct, .start, stands⟩
  · rintro s (addr | ⟨h, a⟩) t ⟨rest, goes, stands⟩ - run
    · obtain ⟨log, stands⟩ := stands.run run
      exact ⟨rest, log ▸ goes, stands⟩
    · obtain ⟨e, next, rfl, log, stands⟩ := stands.answer run
      exact ⟨next a, log ▸ goes.answer a, stands⟩

/-! ## The control comes back -/

/-- However the frames are allocated, the executor has the control again after some steps. -/
inductive ComesBack (useException : Bool) : State E A V X H → Prop
  | here {s : State E A V X H} : s.running = none → ComesBack useException s
  | later {s : State E A V X H} : (∃ addr t, step useException s (.run addr) = some t) →
    (∀ addr t, step useException s (.run addr) = some t → ComesBack useException t) →
    ComesBack useException s

/-- A step that is possible at every address. -/
theorem ComesBack.step (h : H)
    (after : ∀ addr, ∃ t, CallChain.step useException s (.run addr) = some t ∧
      ComesBack useException t) : ComesBack useException s := by
  refine .later ?_ fun addr t run => ?_
  · obtain ⟨t, taken, -⟩ := after h
    exact ⟨h, t, taken⟩
  · obtain ⟨u, taken, back⟩ := after addr
    cases taken.symm.trans run
    exact back

variable [Infinite H]

/-- If the control comes back from every end of `b`, then it comes back from `b`. -/
theorem Runs.comesBack (runs : Runs s h p b stack) (kept : b.Kept useException)
    (after : ∀ t outcome, Ended useException t h p outcome stack → ComesBack useException t) :
    ComesBack useException s := by
  induction b generalizing s h p stack with
  | coReturn value =>
      refine .step h fun addr => ?_
      obtain ⟨t, taken, -, ended⟩ := runs.coReturn useException addr
      exact ⟨t, taken, after t _ ended⟩
  | throws exception =>
      refine .step h fun addr => ?_
      obtain ⟨t, taken, -, ended⟩ := runs.throws kept addr
      exact ⟨t, taken, after t _ ended⟩
  | await e next _ =>
      refine .step h fun addr => ?_
      obtain ⟨t, taken, -, waits⟩ := runs.await useException addr
      exact ⟨t, taken, .here waits.running⟩
  | call callee next ihCallee ihNext =>
      refine .later ?_ fun addr t run => ?_
      · obtain ⟨addr, free⟩ := runs.holds.room
        obtain ⟨t, taken, -⟩ := runs.call useException free
        exact ⟨addr, t, taken⟩
      · obtain ⟨u, taken, -, inner⟩ :=
          runs.call useException (runs.free_of_call run)
        cases taken.symm.trans run
        refine ihCallee inner kept.1 fun t outcome ended => .step h fun addr => ?_
        obtain ⟨v, taken, -, runs⟩ := ended.resume addr
        exact ⟨v, taken, ihNext outcome runs (kept.2 outcome) after⟩

theorem Ended.comesBack (callers : Callers useException root h p stack later) :
    ∀ {s outcome}, Ended useException s h p outcome stack → ComesBack useException s := by
  induction callers with
  | root => exact fun ended => .here ended.running
  | @call c h p stack next later callers kept ih =>
      refine fun ended => .step h fun addr => ?_
      obtain ⟨t, taken, -, runs⟩ := ended.resume addr
      exact ⟨t, taken, runs.comesBack (kept _) fun u outcome ended => ih ended⟩

theorem Stands.comesBack (stands : Stands useException root s rest) :
    ComesBack useException s := by
  cases stands with
  | runs runs callers kept => exact runs.comesBack kept fun _ _ ended => ended.comesBack callers
  | waits waits => exact .here waits.running
  | ended ended callers => exact ended.comesBack callers

/-! ## The whole run -/

/-- The executor has the control, and this is left of the direct program. -/
def Rests (useException : Bool) (root : H) (s : State E A V X H) :
    Dialogue E A (Except X V) → Prop
  | .ask e _ =>
      -- one coroutine waits for the answer, all others for the coroutine above them
      s.completed = 0 ∧ ∃ h f next, s.frames h = some f ∧ f.point = .awaiting e next ∧
        ∀ x g, s.frames x = some g → x = h ∨ ∃ c next, g.point = .calling c next
  | .done outcome =>
      s.completed = 1 ∧ s.mallocCnt = s.freeCnt + 1 ∧ (∀ x, x ≠ root → s.frames x = none) ∧
        ∃ f, s.frames root = some f ∧ f.point = .final ∧ f.result useException = some outcome

omit [DecidableEq H] [Infinite H] in
theorem Stands.rests (stands : Stands useException root s rest) (executor : s.running = none) :
    Rests useException root s rest := by
  cases stands with
  | runs runs => cases runs.running.symm.trans executor
  | @waits h p stack e next later waits callers =>
      refine ⟨waits.completed, h, _, next, waits.holds.top, rfl, fun x g here => ?_⟩
      rcases List.mem_cons.mp ((waits.holds.frames x g).mp here) with top | below
      · cases top
        exact .inl rfl
      · exact .inr (callers.calling below)
  | ended ended callers =>
      cases callers with
      | call => cases ended.running.symm.trans executor
      | root =>
          obtain ⟨f, final, result, holds⟩ := ended.frame
          refine ⟨ended.completed, holds.counts, fun x other => ?_, f, holds.top, final, result⟩
          refine Option.eq_none_iff_forall_ne_some.mpr fun g here => ?_
          have only := (holds.frames x g).mp here
          simp [other] at only

/-- **Coroutines that await coroutines run like calls.**  What was asked and answered is a run of
the direct program; nothing that is not there is used; the control comes back to the executor;
and when the executor has it, one coroutine waits for the answer to the next question, or the
first coroutine has completed once with the program's outcome and all other frames are freed. -/
theorem runs_as_called (kept : b.Kept useException)
    (h : (machine useException root b).Reachable s) :
    s.undefined = false ∧ ComesBack useException s ∧ ∃ rest, b.direct.Goes s.log rest ∧
      (∀ other, b.direct.Goes s.log other → other = rest) ∧
      (s.running = none → Rests useException root s rest) := by
  obtain ⟨rest, goes, stands⟩ := stands_of_reachable kept h
  refine ⟨?_, stands.comesBack, rest, goes, fun _ other => other.unique goes, stands.rests⟩
  cases stands with
  | runs runs => exact runs.holds.defined
  | waits waits => exact waits.holds.defined
  | ended ended =>
      obtain ⟨f, -, -, holds⟩ := ended.frame
      exact holds.defined

end Frames

/-- It awaits a `Task` that asks once and throws the answer `0`, and catches what is thrown. -/
def divider : Body String Nat Nat String :=
  .call
    (.await "divisor" fun a => if a = 0 then .throws "zero" else .coReturn (100 / a))
    fun outcome => .coReturn (outcome.toOption.getD 0)

theorem divider_kept : divider.Kept true := by
  refine ⟨fun a => ?_, fun outcome => trivial⟩
  by_cases zero : a = 0
  · simp [zero, Body.Kept]
  · simp [zero, Body.Kept]

theorem runs_as_called_divider : ∃ s : State String Nat Nat String Nat,
    (machine true 0 divider).exec (start 0 divider)
      [.run 1, .run 0, .answer 1 0, .run 0, .run 0, .run 0] = some s ∧
    s.completed = 1 ∧ s.undefined = false ∧ s.log = [("divisor", 0)] ∧
    ∃ rest, divider.direct.Goes s.log rest ∧ Rests true 0 s rest := by
  refine ⟨_, rfl, ?_⟩
  have reached : (machine true 0 divider).Reachable _ := Machine.Via.exec (.init rfl)
    (show (machine true 0 divider).exec (start 0 divider)
      [.run 1, .run 0, .answer 1 0, .run 0, .run 0, .run 0] = some _ from rfl)
  obtain ⟨defined, -, rest, goes, -, rests⟩ := runs_as_called divider_kept reached
  exact ⟨rfl, defined, rfl, rest, goes, rests rfl⟩

end CoWq.CallChain
