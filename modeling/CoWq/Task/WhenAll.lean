import Mathlib.Data.List.Basic
import Mathlib.Algebra.Group.Nat.Defs
import CoWq.Lib.Machine

/-!
# Waiting for all of several tasks

`when_all` launches its tasks from a fold expression in `await_suspend` and counts them down
from their final suspends; the last one resumes the awaiting coroutine from within its own.

* `onCompleted`, `finalAwaitSuspend`, `launchChild`: the code, over the control block and the
  promises.
* `whenAll`: the machine.  A child may suspend, be resumed and reach its final suspend while the
  fold expression is in its first resume, between two launches, or later.
* `ResumesOnce`: what the awaiting coroutine relies on.
* `resumesOnce_iff`: it holds of a tuple of tasks if and only if none of the handles is null.
-/

namespace CoWq.WhenAll

/-! ## Promises and the control block -/

/-- The coroutine handles that are resumed here. -/
inductive Handle
  | noop
  | awaiting
  deriving DecidableEq, Repr

/-- What `mOnCompleted` may point to. -/
inductive OnCompleted
  | whenAll
  deriving DecidableEq, Repr

/-- What `mUserData` may point to. -/
inductive UserData
  | ctl
  deriving DecidableEq, Repr

structure PromiseBase where
  mPrevious : Option Handle := none
  mOnCompleted : Option OnCompleted := none
  mUserData : Option UserData := none
  deriving DecidableEq, Repr

structure WhenAllCtlBlock where
  count : Nat
  previous : Option Handle := none
  deriving DecidableEq, Repr

/-- `--count`, on a 64-bit `std::size_t`. -/
def decrement : Nat → Nat
  | 0 => 2 ^ 64 - 1
  | count + 1 => count

/-- Where a coroutine is. -/
inductive Phase
  /-- suspended at its initial suspend -/
  | initial
  | running
  | suspended
  /-- suspended at its final suspend -/
  | final
  deriving DecidableEq, Repr

structure Coroutine where
  promise : PromiseBase := {}
  phase : Phase := .initial
  deriving DecidableEq, Repr

/-- An argument of `when_all`. -/
inductive Task
  /-- moved from, or detached -/
  | null
  | coroutine
  deriving DecidableEq, Repr

/-- `child.get()` at the call. -/
def Task.get : Task → Option Coroutine
  | .null => none
  | .coroutine => some {}

/-- The arguments; the `static_assert` excludes an empty list. -/
structure Tasks where
  list : List Task
  nonempty : list ≠ []

/-! ## The machine -/

structure State where
  ctl : WhenAllCtlBlock
  /-- the coroutine behind each handle, `none` for a null handle -/
  children : List (Option Coroutine)
  /-- the children the fold expression has passed -/
  launched : Nat := 0
  /-- the child whose first resume the fold expression is in -/
  inside : Option Nat := none
  /-- `await_suspend` has been called -/
  suspended : Bool := false
  /-- how often the awaiting coroutine has been resumed -/
  resumed : Nat := 0
  deriving DecidableEq, Repr

/-- `WhenAllAwaiter(ts...)` -/
def State.start (tasks : Tasks) : State where
  ctl := { count := tasks.list.length }
  children := tasks.list.map Task.get

def State.resume (s : State) : Handle → State
  | .noop => s
  | .awaiting => { s with resumed := s.resumed + 1 }

/-- `WhenAllAwaiter::on_completed` -/
def onCompleted (s : State) (base : PromiseBase) : State :=
  match base.mUserData with
  | none => s
  | some .ctl =>
      let count := decrement s.ctl.count
      let s := { s with ctl := { s.ctl with count := count } }
      if count = 0 then
        match s.ctl.previous with
        | some previous => s.resume previous
        | none => s
      else s

/-- `FinalAwaiter::await_suspend`, and the transfer to the handle it returns. -/
def finalAwaitSuspend (s : State) (self : PromiseBase) : State :=
  let previous := self.mPrevious
  let s := match self.mOnCompleted with
    | some .whenAll => onCompleted s self
    | none => s
  s.resume (previous.getD .noop)

def State.setChild (s : State) (i : Nat) (child : Coroutine) : State :=
  { s with children := s.children.set i (some child) }

/-- What a launched child finds in its promise. -/
def launchedPromise : PromiseBase where
  mPrevious := some .noop
  mOnCompleted := some .whenAll
  mUserData := some .ctl

/-- The fold expression's body for child `i`, up to the start of the child. -/
def launchChild (s : State) (i : Nat) : Option Coroutine → State
  | none => { s with launched := i + 1 }
  | some child =>
      { s.setChild i { child with promise := launchedPromise, phase := .running } with
        launched := i + 1
        inside := some i }

/-- Child `i` gives control back; inside its first resume the fold expression goes on. -/
def State.back (s : State) (i : Nat) : State :=
  if s.inside = some i then { s with inside := none } else s

inductive Action
  /-- `await_suspend` is entered -/
  | awaitSuspend
  /-- the fold expression takes the next child -/
  | launch
  /-- child `i` suspends -/
  | suspend (i : Nat)
  /-- somebody resumes the suspended child `i` -/
  | resume (i : Nat)
  /-- child `i` reaches its final suspend -/
  | finish (i : Nat)
  deriving DecidableEq, Repr

def step (s : State) : Action → Option State
  | .awaitSuspend =>
      if s.suspended then none
      else some { s with suspended := true, ctl := { s.ctl with previous := some .awaiting } }
  | .launch =>
      if s.suspended ∧ s.inside = none then
        (s.children[s.launched]?).map (launchChild s s.launched)
      else none
  | .suspend i =>
      match s.children[i]? with
      | some (some ⟨promise, .running⟩) =>
          some ((s.setChild i ⟨promise, .suspended⟩).back i)
      | _ => none
  | .resume i =>
      match s.children[i]? with
      | some (some ⟨promise, .suspended⟩) => some (s.setChild i ⟨promise, .running⟩)
      | _ => none
  | .finish i =>
      match s.children[i]? with
      | some (some ⟨promise, .running⟩) =>
          some ((finalAwaitSuspend (s.setChild i ⟨promise, .final⟩) promise).back i)
      | _ => none

def whenAll (tasks : Tasks) : Machine State Action where
  init s := s = .start tasks
  step := step

/-- A child that has yet to complete; a null handle never does. -/
def pending : Option Coroutine → Bool
  | none => true
  | some child => decide (child.phase ≠ .final)

/-- Every child behind a handle that is not null has reached its final suspend. -/
def State.Completed (s : State) : Prop :=
  ∀ (i : Nat) (child : Coroutine), s.children[i]? = some (some child) → child.phase = .final

/-- `await_suspend` has returned. -/
def State.Returned (s : State) : Prop :=
  s.suspended ∧ s.inside = none ∧ s.launched = s.children.length

/-- The awaiting coroutine is resumed exactly once, and behind all the children. -/
structure ResumesOnce (tasks : Tasks) : Prop where
  atMostOnce : ∀ s, (whenAll tasks).Reachable s → s.resumed ≤ 1
  afterAll : ∀ s, (whenAll tasks).Reachable s → 0 < s.resumed → s.Completed
  once : ∀ s, (whenAll tasks).Reachable s → s.Returned → s.Completed → s.resumed = 1
  /-- nothing but a child that does not complete keeps a run from that point -/
  progress : ∀ s, (whenAll tasks).Reachable s →
    (∀ a, (whenAll tasks).step s a = none) → s.Returned ∧ s.Completed

/-! ## The count -/

theorem pending_iff {child : Coroutine} :
    pending (some child) = true ↔ child.phase ≠ .final := by
  simp [pending]

theorem countP_set_of_get {α : Type*} {p : α → Bool} {xs : List α} {i : Nat} {x : α} (y : α)
    (at_i : xs[i]? = some x) :
    (xs.set i y).countP p + (if p x then 1 else 0) = xs.countP p + if p y then 1 else 0 := by
  obtain ⟨inside, rfl⟩ := List.getElem?_eq_some_iff.mp at_i
  have counted : p xs[i] = true → 0 < xs.countP p := fun holds =>
    List.countP_pos_iff.mpr ⟨_, List.getElem_mem inside, holds⟩
  rw [List.countP_set inside]
  by_cases holds : p xs[i] = true
  · have := counted holds
    simp only [holds, if_true]
    omega
  · simp only [holds, Bool.false_eq_true, if_false]
    omega

/-- Moving a child on does not change the count unless it completes. -/
theorem countP_setChild {s : State} {i : Nat} {old : Coroutine} (new : Coroutine)
    (at_i : s.children[i]? = some (some old)) (open_old : old.phase ≠ .final)
    (open_new : new.phase ≠ .final) :
    (s.setChild i new).children.countP pending = s.children.countP pending := by
  have count := countP_set_of_get (p := pending) (some new) at_i
  simp only [pending_iff.mpr open_old, pending_iff.mpr open_new, if_true] at count
  exact Nat.add_right_cancel count

theorem countP_finish {s : State} {i : Nat} {old new : Coroutine}
    (at_i : s.children[i]? = some (some old)) (open_old : old.phase ≠ .final)
    (final : new.phase = .final) :
    (s.setChild i new).children.countP pending + 1 = s.children.countP pending := by
  have count := countP_set_of_get (p := pending) (some new) at_i
  have closed : pending (some new) = false := by simp [pending, final]
  simp only [pending_iff.mpr open_old, closed, if_true] at count
  exact count

/-! ## Where the children and the fold expression are -/

structure Placed (tasks : Tasks) (s : State) : Prop where
  shape : s.children.map Option.isSome = tasks.list.map fun task => decide (task ≠ .null)
  previous : s.suspended → s.ctl.previous = some .awaiting
  early : ¬s.suspended → s.launched = 0
  bound : s.launched ≤ s.children.length
  initial : ∀ (i : Nat) (child : Coroutine), s.children[i]? = some (some child) →
    (child.phase = .initial ↔ s.launched ≤ i)
  promise : ∀ (i : Nat) (child : Coroutine), s.children[i]? = some (some child) →
    i < s.launched → child.promise = launchedPromise
  inside : ∀ (i : Nat), s.inside = some i →
    ∃ child : Coroutine, s.children[i]? = some (some child) ∧ child.phase = .running

variable {tasks : Tasks} {s t : State}

theorem Placed.start (tasks : Tasks) : Placed tasks (.start tasks) where
  shape := by
    simp only [State.start, List.map_map]
    refine List.map_congr_left fun task _ => ?_
    cases task <;> rfl
  previous := nofun
  early := fun _ => rfl
  bound := Nat.zero_le _
  initial := by
    intro i child at_i
    obtain ⟨task, _, get⟩ := List.getElem?_map .. ▸ at_i |> Option.map_eq_some_iff.mp
    cases task with
    | null => cases get
    | coroutine =>
        cases get
        simp [State.start]
  promise := nofun
  inside := nofun

/-- The shape of the list of children does not depend on where they are. -/
theorem shape_set {i : Nat} {old new : Coroutine} {children : List (Option Coroutine)}
    (at_i : children[i]? = some (some old)) :
    (children.set i (some new)).map Option.isSome = children.map Option.isSome := by
  have isSome : (children.map Option.isSome)[i]? = some true := by
    rw [List.getElem?_map, at_i]
    rfl
  obtain ⟨within, value⟩ := List.getElem?_eq_some_iff.mp isSome
  rw [List.map_set]
  exact (congrArg (List.set _ i) value.symm).trans (List.set_getElem_self within)

theorem get_of_set {i j : Nat} {old new child : Coroutine} {children : List (Option Coroutine)}
    (at_i : children[i]? = some (some old))
    (at_j : (children.set i (some new))[j]? = some (some child)) :
    (j = i ∧ child = new) ∨ (j ≠ i ∧ children[j]? = some (some child)) := by
  obtain ⟨within, _⟩ := List.getElem?_eq_some_iff.mp at_i
  simp only [List.getElem?_set, within, if_true] at at_j
  split_ifs at at_j with same
  · cases at_j
    exact .inl ⟨same.symm, rfl⟩
  · exact .inr ⟨fun h => same h.symm, at_j⟩

/-- A null handle is passed over. -/
theorem Placed.launchNull (placed : Placed tasks s) (entered : s.suspended)
    (at_next : s.children[s.launched]? = some none) :
    Placed tasks (launchChild s s.launched none) := by
  have other : ∀ {i : Nat} {child : Coroutine}, s.children[i]? = some (some child) →
      i ≠ s.launched := by
    rintro i child at_i rfl
    rw [at_next] at at_i
    cases at_i
  exact {
    placed with
    early := fun fresh => absurd entered fresh
    bound := (List.getElem?_eq_some_iff.mp at_next).1
    initial := by
      intro i child at_i
      rw [placed.initial i child at_i]
      have := other at_i
      simp only [launchChild]
      omega
    promise := by
      intro i child at_i passed
      have := other at_i
      simp only [launchChild] at passed
      exact placed.promise i child at_i (by omega) }

theorem Placed.launchSome {child : Coroutine} (placed : Placed tasks s) (entered : s.suspended)
    (at_next : s.children[s.launched]? = some (some child)) :
    Placed tasks (launchChild s s.launched (some child)) := by
  have within := (List.getElem?_eq_some_iff.mp at_next).1
  exact {
    shape := (shape_set at_next).trans placed.shape
    previous := placed.previous
    early := fun fresh => absurd entered fresh
    bound := by
      simp only [launchChild, State.setChild, List.length_set]
      exact within
    initial := by
      intro j c at_j
      rcases get_of_set at_next at_j with ⟨rfl, rfl⟩ | ⟨other, at_j⟩
      · simp [launchChild]
      · rw [placed.initial j c at_j]
        simp only [launchChild]
        omega
    promise := by
      intro j c at_j passed
      simp only [launchChild] at passed
      rcases get_of_set at_next at_j with ⟨rfl, rfl⟩ | ⟨other, at_j⟩
      · rfl
      · exact placed.promise j c at_j (by omega)
    inside := by
      intro j at_j
      cases at_j
      exact ⟨{ promise := launchedPromise, phase := .running },
        List.getElem?_set_self within, rfl⟩ }

/-- A launched child moves on; whatever else happens, the fold expression stays where it is or
is given control back. -/
theorem Placed.move {i : Nat} {old : Coroutine} (new : Coroutine) (placed : Placed tasks s)
    (at_i : s.children[i]? = some (some old)) (launched_old : old.phase ≠ .initial)
    (launched_new : new.phase ≠ .initial) (promise : new.promise = old.promise)
    (children : t.children = s.children.set i (some new)) (suspended : t.suspended = s.suspended)
    (launched : t.launched = s.launched) (previous : t.ctl.previous = s.ctl.previous)
    (inside : ∀ j, t.inside = some j → s.inside = some j ∧ (j = i → new.phase = .running)) :
    Placed tasks t where
  shape := by
    rw [children, shape_set at_i]
    exact placed.shape
  previous := by
    rw [suspended, previous]
    exact placed.previous
  early := by
    rw [suspended, launched]
    exact placed.early
  bound := by
    rw [children, launched, List.length_set]
    exact placed.bound
  initial := by
    intro j c at_j
    rw [launched]
    rw [children] at at_j
    rcases get_of_set at_i at_j with ⟨rfl, rfl⟩ | ⟨_, at_j⟩
    · have place := placed.initial _ _ at_i
      exact ⟨fun h => absurd h launched_new, fun h => absurd (place.mpr h) launched_old⟩
    · exact placed.initial j c at_j
  promise := by
    intro j c at_j passed
    rw [launched] at passed
    rw [children] at at_j
    rcases get_of_set at_i at_j with ⟨rfl, rfl⟩ | ⟨_, at_j⟩
    · exact promise.trans (placed.promise _ _ at_i passed)
    · exact placed.promise j c at_j passed
  inside := by
    intro j at_j
    obtain ⟨within, running⟩ := inside j at_j
    obtain ⟨c, at_c, phase⟩ := placed.inside j within
    rw [children, List.getElem?_set]
    split_ifs with same bound
    · exact ⟨new, rfl, running same.symm⟩
    · exact absurd (List.getElem?_eq_some_iff.mp at_i).1 bound
    · exact ⟨c, at_c, phase⟩

/-! ## The count and the awaiting coroutine -/

/-- The count stands for the children still to complete and for the null handles. -/
structure Counted (s : State) : Prop where
  counted : s.ctl.count = s.children.countP pending
  once : s.resumed = if s.ctl.count = 0 then 1 else 0

theorem Counted.start (tasks : Tasks) : Counted (.start tasks) where
  counted := by
    have all : ∀ child ∈ tasks.list.map Task.get, pending child = true := by
      intro child member
      obtain ⟨task, _, rfl⟩ := List.mem_map.mp member
      cases task <;> rfl
    simp only [State.start, List.countP_eq_length.mpr all, List.length_map]
  once := (if_neg (List.length_pos_iff.mpr tasks.nonempty).ne').symm

theorem onCompleted_launched (previous : s.ctl.previous = some .awaiting) :
    onCompleted s launchedPromise =
      { s with
        ctl := { s.ctl with count := decrement s.ctl.count }
        resumed := s.resumed + if decrement s.ctl.count = 0 then 1 else 0 } := by
  simp only [onCompleted, launchedPromise, previous]
  split_ifs <;> rfl

/-- What the final suspend of a launched child does. -/
theorem finalAwaitSuspend_launched (previous : s.ctl.previous = some .awaiting) :
    finalAwaitSuspend s launchedPromise =
      { s with
        ctl := { s.ctl with count := decrement s.ctl.count }
        resumed := s.resumed + if decrement s.ctl.count = 0 then 1 else 0 } :=
  onCompleted_launched previous

/-- A completion takes one off the count; the last one resumes the awaiting coroutine. -/
theorem Counted.finish {i : Nat} {old new : Coroutine} (counted : Counted s)
    (at_i : s.children[i]? = some (some old)) (open_old : old.phase ≠ .final)
    (final : new.phase = .final) (previous : s.ctl.previous = some .awaiting) :
    Counted (finalAwaitSuspend (s.setChild i new) launchedPromise) := by
  have count := countP_finish at_i open_old final
  have before := counted.counted
  have one : s.ctl.count = (s.setChild i new).children.countP pending + 1 := by omega
  rw [finalAwaitSuspend_launched (s := s.setChild i new) previous]
  refine ⟨?_, ?_⟩
  · simp only [State.setChild, one, decrement]
  · have once := counted.once
    rw [if_neg (by omega)] at once
    simp only [State.setChild, once, Nat.zero_add]

/-! ## Every run -/

structure Tidy (tasks : Tasks) (s : State) : Prop where
  placed : Placed tasks s
  counted : Counted s

theorem Tidy.awaitSuspend (tidy : Tidy tasks s) (run : step s .awaitSuspend = some t) :
    Tidy tasks t := by
  obtain ⟨fresh, run⟩ := Option.ite_none_left_eq_some.mp run
  cases run
  refine ⟨{ tidy.placed with previous := fun _ => rfl, early := ?_ },
    tidy.counted.counted, tidy.counted.once⟩
  intro entered
  exact absurd rfl entered

theorem Tidy.launch (tidy : Tidy tasks s) (run : step s .launch = some t) : Tidy tasks t := by
  obtain ⟨⟨entered, _⟩, run⟩ := Option.ite_none_right_eq_some.mp run
  obtain ⟨handle, at_next, rfl⟩ := Option.map_eq_some_iff.mp run
  cases handle with
  | none => exact ⟨tidy.placed.launchNull entered at_next, tidy.counted.counted, tidy.counted.once⟩
  | some child =>
      have initial := (tidy.placed.initial _ _ at_next).mpr (le_refl _)
      refine ⟨tidy.placed.launchSome entered at_next, ?_, tidy.counted.once⟩
      have count := countP_setChild ⟨launchedPromise, .running⟩ at_next
        (by simp [initial]) (by simp)
      exact tidy.counted.counted.trans count.symm

theorem back_inside {i j : Nat} (within : (s.back i).inside = some j) :
    s.inside = some j ∧ j ≠ i := by
  simp only [State.back] at within
  split_ifs at within with here
  refine ⟨within, ?_⟩
  rintro rfl
  exact here within

theorem back_frame (i : Nat) :
    (s.back i).children = s.children ∧ (s.back i).suspended = s.suspended ∧
      (s.back i).launched = s.launched ∧ (s.back i).ctl = s.ctl ∧
      (s.back i).resumed = s.resumed := by
  simp only [State.back]
  split_ifs <;> exact ⟨rfl, rfl, rfl, rfl, rfl⟩

theorem Counted.back (counted : Counted s) (i : Nat) : Counted (s.back i) := by
  obtain ⟨children, _, _, ctl, resumed⟩ := back_frame (s := s) i
  refine ⟨?_, ?_⟩
  · rw [ctl, children]
    exact counted.counted
  · rw [ctl, resumed]
    exact counted.once

theorem Tidy.suspend {i : Nat} (tidy : Tidy tasks s) (run : step s (.suspend i) = some t) :
    Tidy tasks t := by
  simp only [step] at run
  split at run
  case h_2 => cases run
  case h_1 promise at_i =>
    cases run
    obtain ⟨children, suspended, launched, ctl, _⟩ :=
      back_frame (s := s.setChild i ⟨promise, .suspended⟩) i
    refine ⟨tidy.placed.move ⟨promise, .suspended⟩ at_i (by simp) (by simp) rfl children
      suspended launched (congrArg _ ctl) ?_, Counted.back ?_ i⟩
    · intro j within
      obtain ⟨within, other⟩ := back_inside within
      exact ⟨within, fun h => absurd h other⟩
    · exact ⟨tidy.counted.counted.trans (countP_setChild _ at_i (by simp) (by simp)).symm,
        tidy.counted.once⟩

theorem Tidy.resume {i : Nat} (tidy : Tidy tasks s) (run : step s (.resume i) = some t) :
    Tidy tasks t := by
  simp only [step] at run
  split at run
  case h_2 => cases run
  case h_1 promise at_i =>
    cases run
    refine ⟨tidy.placed.move ⟨promise, .running⟩ at_i (by simp) (by simp) rfl rfl
      rfl rfl rfl ?_, ?_, tidy.counted.once⟩
    · exact fun j within => ⟨within, fun _ => rfl⟩
    · exact tidy.counted.counted.trans (countP_setChild _ at_i (by simp) (by simp)).symm

theorem Tidy.finish {i : Nat} (tidy : Tidy tasks s) (run : step s (.finish i) = some t) :
    Tidy tasks t := by
  simp only [step] at run
  split at run
  case h_2 => cases run
  case h_1 promise at_i =>
    cases run
    have passed : i < s.launched := by
      have place := tidy.placed.initial _ _ at_i
      simp only [reduceCtorEq, false_iff, not_le] at place
      exact place
    have launched : promise = launchedPromise := tidy.placed.promise _ _ at_i passed
    subst launched
    have entered : s.suspended = true := by
      by_contra fresh
      have := tidy.placed.early fresh
      omega
    have previous := tidy.placed.previous entered
    refine ⟨?_, (tidy.counted.finish at_i (by simp) rfl previous).back i⟩
    obtain ⟨children, suspended, launched, ctl, _⟩ := back_frame (s := finalAwaitSuspend
      (s.setChild i ⟨launchedPromise, .final⟩) launchedPromise) i
    have final := finalAwaitSuspend_launched (s := s.setChild i ⟨launchedPromise, .final⟩) previous
    refine tidy.placed.move ⟨launchedPromise, .final⟩ at_i (by simp) (by simp) rfl
      (children.trans (by rw [final]; rfl)) (suspended.trans (by rw [final]; rfl))
      (launched.trans (by rw [final]; rfl)) ((congrArg _ ctl).trans (by rw [final]; rfl)) ?_
    intro j within
    obtain ⟨within, other⟩ := back_inside within
    rw [final] at within
    exact ⟨within, fun h => absurd h other⟩

theorem Tidy.step (tidy : Tidy tasks s) {a : Action} (run : step s a = some t) :
    Tidy tasks t := by
  cases a with
  | awaitSuspend => exact tidy.awaitSuspend run
  | launch => exact tidy.launch run
  | suspend i => exact tidy.suspend run
  | resume i => exact tidy.resume run
  | finish i => exact tidy.finish run

theorem reachable_tidy (h : (whenAll tasks).Reachable s) : Tidy tasks s :=
  h.invariant (I := Tidy tasks)
    (fun _ initial => by cases initial; exact ⟨.start tasks, .start tasks⟩)
    fun _ _ _ tidy _ run => tidy.step run

/-! ## What the awaiting coroutine gets -/

theorem Counted.at_most_once (counted : Counted s) : s.resumed ≤ 1 := by
  rw [counted.once]
  split_ifs <;> omega

/-- With the awaiting coroutine resumed, no child is left to complete, and no handle is null. -/
theorem Counted.none_pending (counted : Counted s) (resumed : 0 < s.resumed) :
    ∀ child ∈ s.children, pending child = false := by
  have zero : s.ctl.count = 0 := by
    by_contra positive
    have once := counted.once
    rw [if_neg positive] at once
    omega
  intro child member
  have none_left := List.countP_eq_zero.mp (counted.counted.symm.trans zero) child member
  exact Bool.eq_false_iff.mpr none_left

theorem Counted.completed (counted : Counted s) (resumed : 0 < s.resumed) : s.Completed := by
  intro i child at_i
  have done := counted.none_pending resumed _ (List.mem_of_getElem? at_i)
  by_contra still_open
  rw [pending_iff.mpr still_open] at done
  cases done

theorem Placed.no_null (placed : Placed tasks s) (no_null : Task.null ∉ tasks.list) :
    none ∉ s.children := by
  intro member
  have missing : false ∈ s.children.map Option.isSome := List.mem_map.mpr ⟨none, member, rfl⟩
  rw [placed.shape] at missing
  obtain ⟨task, member, null⟩ := List.mem_map.mp missing
  cases task with
  | null => exact no_null member
  | coroutine => cases null

theorem Placed.null (placed : Placed tasks s) (null : Task.null ∈ tasks.list) :
    none ∈ s.children := by
  have missing : false ∈ s.children.map Option.isSome := by
    rw [placed.shape]
    exact List.mem_map.mpr ⟨.null, null, rfl⟩
  obtain ⟨child, member, isSome⟩ := List.mem_map.mp missing
  rw [Option.isSome_eq_false_iff, Option.isNone_iff_eq_none] at isSome
  exact isSome ▸ member

/-- When all the children have completed and no handle is null, the count is used up. -/
theorem Tidy.resumed (tidy : Tidy tasks s) (no_null : Task.null ∉ tasks.list)
    (completed : s.Completed) : s.resumed = 1 := by
  have none_left : s.children.countP pending = 0 := by
    apply List.countP_eq_zero.mpr
    intro child member
    cases child with
    | none => exact absurd member (tidy.placed.no_null no_null)
    | some child =>
        obtain ⟨i, at_i⟩ := List.getElem?_of_mem member
        rw [pending_iff]
        exact fun still_open => still_open (completed i child at_i)
  rw [tidy.counted.once, tidy.counted.counted, none_left]
  rfl

/-- With a null handle the awaiting coroutine is not resumed in any run. -/
theorem Tidy.stranded (tidy : Tidy tasks s) (null : Task.null ∈ tasks.list) : s.resumed = 0 := by
  by_contra resumed
  have done := tidy.counted.none_pending (Nat.pos_of_ne_zero resumed) _ (tidy.placed.null null)
  cases done

theorem Tidy.at_rest (tidy : Tidy tasks s) (rest : ∀ a, (whenAll tasks).step s a = none) :
    s.Returned ∧ s.Completed := by
  have entered : s.suspended = true := by
    by_contra fresh
    have enters := rest .awaitSuspend
    simp [whenAll, WhenAll.step, fresh] at enters
  have free : s.inside = none := by
    cases inside : s.inside with
    | none => rfl
    | some i =>
        obtain ⟨⟨promise, phase⟩, at_i, running⟩ := tidy.placed.inside i inside
        cases running
        have suspends := rest (.suspend i)
        simp [whenAll, WhenAll.step, at_i] at suspends
  have passed : s.launched = s.children.length := by
    have bound := tidy.placed.bound
    by_contra more
    have within : s.launched < s.children.length := by omega
    have launches := rest .launch
    simp [whenAll, WhenAll.step, entered, free, within] at launches
  refine ⟨⟨entered, free, passed⟩, ?_⟩
  rintro i ⟨promise, phase⟩ at_i
  have inside := (List.getElem?_eq_some_iff.mp at_i).1
  have place := tidy.placed.initial i _ at_i
  cases phase with
  | initial =>
      have := place.mp rfl
      omega
  | running =>
      have suspends := rest (.suspend i)
      simp [whenAll, WhenAll.step, at_i] at suspends
  | suspended =>
      have resumes := rest (.resume i)
      simp [whenAll, WhenAll.step, at_i] at resumes
  | final => rfl

/-- Every launched child has reached its final suspend. -/
def State.CompletedSoFar (s : State) : Prop :=
  ∀ (i : Nat) (child : Coroutine), i < s.launched → s.children[i]? = some (some child) →
    child.phase = .final

/-- The next child can complete in its first resume. -/
theorem launch_and_finish (reach : (whenAll tasks).Reachable s) (entered : s.suspended)
    (free : s.inside = none) (within : s.launched < s.children.length)
    (completed : s.CompletedSoFar) :
    ∃ t, (whenAll tasks).Reachable t ∧ t.suspended ∧ t.inside = none ∧
      t.launched = s.launched + 1 ∧ t.children.length = s.children.length ∧ t.CompletedSoFar := by
  have launches : ∀ {handle}, s.children[s.launched]? = some handle →
      (whenAll tasks).step s .launch = some (launchChild s s.launched handle) := by
    intro handle at_next
    simp only [whenAll, WhenAll.step, entered, free, and_self, if_true, at_next, Option.map_some]
  cases handle : s.children[s.launched] with
  | none =>
      have at_next : s.children[s.launched]? = some none := by
        rw [List.getElem?_eq_getElem within, handle]
      refine ⟨_, .step reach trivial (launches at_next), entered, free, rfl, rfl, ?_⟩
      intro i child passed at_i
      simp only [launchChild] at passed at_i
      rcases Nat.lt_succ_iff_lt_or_eq.mp passed with earlier | rfl
      · exact completed i child earlier at_i
      · rw [at_next] at at_i
        cases at_i
  | some child =>
      have at_next : s.children[s.launched]? = some (some child) := by
        rw [List.getElem?_eq_getElem within, handle]
      have launched := Machine.Via.step reach trivial (launches at_next)
      have running : (launchChild s s.launched (some child)).children[s.launched]? =
          some (some ⟨launchedPromise, .running⟩) :=
        List.getElem?_set_self within
      have finishes : (whenAll tasks).step (launchChild s s.launched (some child))
          (.finish s.launched) = some ((finalAwaitSuspend ((launchChild s s.launched
            (some child)).setChild s.launched ⟨launchedPromise, .final⟩) launchedPromise).back
              s.launched) := by
        simp only [whenAll, WhenAll.step, running]
      have final := finalAwaitSuspend_launched (s := (launchChild s s.launched
        (some child)).setChild s.launched ⟨launchedPromise, .final⟩)
        ((reachable_tidy launched).placed.previous entered)
      rw [final] at finishes
      simp only [State.back, launchChild, State.setChild, if_true] at finishes
      refine ⟨_, .step launched trivial finishes, entered, rfl, rfl, ?_, ?_⟩
      · simp only [List.length_set]
      · intro i child passed at_i
        rcases get_of_set running at_i with ⟨rfl, rfl⟩ | ⟨other, at_i⟩
        · rfl
        · rcases get_of_set at_next at_i with ⟨rfl, rfl⟩ | ⟨_, at_i⟩
          · exact absurd rfl other
          · rcases Nat.lt_succ_iff_lt_or_eq.mp passed with earlier | same
            · exact completed i child earlier at_i
            · exact absurd same other

/-- The fold expression can run to its end with every child completing in its first resume. -/
theorem runs_through (n : Nat) (reach : (whenAll tasks).Reachable s) (entered : s.suspended)
    (free : s.inside = none) (length : s.children.length = s.launched + n)
    (completed : s.CompletedSoFar) :
    ∃ t, (whenAll tasks).Reachable t ∧ t.Returned ∧ t.Completed := by
  induction n generalizing s with
  | zero =>
      refine ⟨s, reach, ⟨entered, free, length.symm⟩, ?_⟩
      intro i child at_i
      have within := (List.getElem?_eq_some_iff.mp at_i).1
      exact completed i child (by omega) at_i
  | succ n ih =>
      obtain ⟨t, reach_t, entered_t, free_t, launched_t, length_t, completed_t⟩ :=
        launch_and_finish reach entered free (by omega) completed
      exact ih reach_t entered_t free_t (by omega) completed_t

theorem returns (tasks : Tasks) :
    ∃ t, (whenAll tasks).Reachable t ∧ t.Returned ∧ t.Completed := by
  have enters : (whenAll tasks).step (.start tasks) .awaitSuspend = some _ := rfl
  apply runs_through tasks.list.length (.step (.init rfl) trivial enters) rfl rfl
  · simp only [State.start, List.length_map, Nat.zero_add]
  · intro i child passed
    cases passed

/-- `when_all` resumes the awaiting coroutine once, and behind all its children, if and only if
none of the handles is null. -/
theorem resumesOnce_iff (tasks : Tasks) : ResumesOnce tasks ↔ Task.null ∉ tasks.list := by
  constructor
  · intro once null
    obtain ⟨t, reach, returned, completed⟩ := returns tasks
    have resumed := once.once t reach returned completed
    have stranded := (reachable_tidy reach).stranded null
    omega
  · intro no_null
    exact {
      atMostOnce := fun s reach => (reachable_tidy reach).counted.at_most_once
      afterAll := fun s reach resumed => (reachable_tidy reach).counted.completed resumed
      once := fun s reach _ completed => (reachable_tidy reach).resumed no_null completed
      progress := fun s reach rest => (reachable_tidy reach).at_rest rest }

/-- `when_all(t1, t2)` with `t1` moved from: `t2` completes and `await_suspend` returns, and the
awaiting coroutine stays suspended. -/
theorem moved_from_child : ¬ResumesOnce ⟨[.null, .coroutine], List.cons_ne_nil _ _⟩ := by
  intro once
  have run : (whenAll ⟨[.null, .coroutine], List.cons_ne_nil _ _⟩).exec
      (.start ⟨[.null, .coroutine], List.cons_ne_nil _ _⟩)
      [.awaitSuspend, .launch, .launch, .finish 1] = some _ := rfl
  have resumed := once.once _ (Machine.Via.exec (.init rfl) run) ⟨rfl, rfl, rfl⟩ (by
    intro i child at_i
    match i with
    | 0 => cases at_i
    | 1 =>
        cases at_i
        rfl)
  cases resumed

end CoWq.WhenAll
