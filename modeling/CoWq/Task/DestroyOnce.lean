import CoWq.Task.Worker
import Mathlib.Data.Fintype.Basic

/-!
# A posted coroutine is destroyed once

* `Owned`: over runs that meet `Apart`, who is going to destroy the frame.
* `destroyed_once`: at most one destruction, nothing after it, and exactly one when
  the coroutine is done and everything has come to rest.
* `not_destroyed_once`: a completion on another worker right behind the clear of
  `_running_on_executor`.
-/

namespace CoWq.Worker

open Workqueue

namespace Pc

/-- `wk_cb` is on the stack. -/
def inWk : Pc → Bool
  | .wkSet => true
  | .wkTest => true
  | .body wk => wk
  | .final wk => wk
  | .adapter wk => wk
  | .check wk => wk
  | .mark wk => wk
  | .relink wk => wk
  | .wkClear => true
  | .wkDone => true
  | .wkDestroy => true
  | _ => false

/-- The coroutine, or its final awaiter, is on the stack. -/
def host : Pc → Bool
  | .body _ => true
  | .final _ => true
  | .adapter _ => true
  | .check _ => true
  | .mark _ => true
  | .relink _ => true
  | _ => false

/-- In `wk_cb`, between the two writes of `_running_on_executor`. -/
def flagged : Pc → Bool
  | .wkSet => false
  | .wkDone => false
  | .wkDestroy => false
  | p => p.inWk

end Pc

variable {T O : Type*} [DecidableEq T] [DecidableEq O] {s s' : State T O}

/-- Who may touch the promise, and who will destroy it. -/
structure Owned (s : State T O) : Prop where
  wk : ∀ t u, (s.pc t).inWk → (s.pc u).inWk → t = u
  host : ∀ t u, (s.pc t).host → (s.pc u).host → t = u
  count : s.wsHead.count .self ≤ 1
  queued : .self ∈ s.wsHead → (∀ t, s.pc t = .idle) ∧ s.func = .wkCb ∧
    (s.coro = .initial ∨ s.coro = .final)
  early : ∀ t, s.pc t = .wkSet ∨ s.pc t = .wkTest →
    (∀ u, u ≠ t → s.pc u = .idle) ∧ (s.coro = .initial ∨ s.coro = .final)
  flag : s.runningOnExecutor = true → ∃ t, (s.pc t).flagged
  flagged : ∀ t, (s.pc t).flagged → s.runningOnExecutor = true
  body : ∀ t wk, s.pc t = .body wk → s.coro = .running
  quiet : s.coro = .suspended → ∀ t, (s.pc t).host = false
  finishing : ∀ t, (s.pc t).finishing → s.coro = .final ∧ s.completionPosted = false
  posting : ∀ t wk, s.pc t = .mark wk ∨ s.pc t = .relink wk →
    wk = false ∧ s.coro = .final ∧ ∀ u, u ≠ t → s.pc u = .idle
  done : ∀ t, s.pc t = .wkDone → s.coro = .final → ∀ u, u ≠ t → s.pc u = .idle
  destroy : ∀ t, s.pc t = .wkDestroy → s.coro = .final ∧ ∀ u, u ≠ t → s.pc u = .idle
  posted : s.completionPosted = true → s.coro = .final
  excutor : s.excutor = true
  node : ∀ t, s.pc t ≠ .destroyNode
  destroyed : s.destroys = 0 ∨
    s.destroys = 1 ∧ s.coro = .final ∧ (∀ t, s.pc t = .idle) ∧ .self ∉ s.wsHead
  rest : s.coro = .final → s.destroys = 0 → .self ∈ s.wsHead ∨ ∃ t, s.pc t ≠ .idle
  late : s.late = false

omit [DecidableEq T] in
theorem Owned.init (start : init s) : Owned s := by
  obtain ⟨wsHead, func, excutor, running, posted, coro, pc, destroys, late⟩ := start
  constructor <;> simp_all [Pc.inWk, Pc.host, Pc.flagged, Pc.finishing]

omit [DecidableEq T] in
/-- A thread that is not idle finds the frame alive. -/
theorem Owned.alive {t : T} (h : Owned s) (active : s.pc t ≠ .idle) : s.destroys = 0 := by
  rcases h.destroyed with zero | ⟨-, -, idle, -⟩
  · exact zero
  · exact (active (idle t)).elim

omit [DecidableEq T] [DecidableEq O] in
theorem touch_eq (late : s.late = false) (alive : s.destroys = 0) : s.touch = s := by
  cases s
  simp_all [State.touch]

/-! ## One thread goes on -/

omit [DecidableEq T] in
/-- Where another thread is active, none is at a point that it has for itself. -/
theorem Owned.crowded {t u : T} (h : Owned s) (active : s.pc t ≠ .idle) (other : u ≠ t) :
    (s.pc u ≠ .wkSet ∧ s.pc u ≠ .wkTest) ∧ (∀ wk, s.pc u ≠ .mark wk ∧ s.pc u ≠ .relink wk) ∧
      (s.pc u = .wkDone → s.coro ≠ .final) ∧ s.pc u ≠ .wkDestroy := by
  have apart : t ≠ u := Ne.symm other
  refine ⟨⟨?_, ?_⟩, fun wk => ⟨?_, ?_⟩, ?_, ?_⟩
  · exact fun there => active ((h.early u (.inl there)).1 t apart)
  · exact fun there => active ((h.early u (.inr there)).1 t apart)
  · exact fun there => active ((h.posting u wk (.inl there)).2.2 t apart)
  · exact fun there => active ((h.posting u wk (.inr there)).2.2 t apart)
  · exact fun there final => active (h.done u there final t apart)
  · exact fun there => active ((h.destroy u there).2 t apart)

/-- A thread goes on to a point that asks for no more than the last one. -/
theorem Owned.move {t : T} {q : Pc} (h : Owned s) (active : s.pc t ≠ .idle)
    (goes : q = .wkClear ∨ ∃ wk, q = .adapter wk ∨ q = .check wk)
    (inWk : q.inWk → (s.pc t).inWk) (host : q.host → (s.pc t).host)
    (flagged : q.flagged = (s.pc t).flagged) (finishing : q.finishing → (s.pc t).finishing) :
    Owned (s.setPc t q) := by
  have stays : q ≠ .idle := by
    rcases goes with rfl | ⟨wk, rfl | rfl⟩ <;> simp
  -- a thread at `p` in the new state was there before, when `t` has not gone to `p`
  have before : ∀ {u p}, (s.setPc t q).pc u = p → q ≠ p → s.pc u = p ∧ u ≠ t := by
    intro u p there away
    rcases eq_or_ne u t with rfl | other
    · rw [show (s.setPc u q).pc u = q from if_pos rfl] at there
      exact absurd there away
    · rw [show (s.setPc t q).pc u = s.pc u from if_neg other] at there
      exact ⟨there, other⟩
  have kept : ∀ {f : Pc → Bool}, (f q → f (s.pc t)) → ∀ u, f ((s.setPc t q).pc u) → f (s.pc u) := by
    intro f keeps u holds
    rcases eq_or_ne u t with rfl | other
    · rw [show (s.setPc u q).pc u = q from if_pos rfl] at holds
      exact keeps holds
    · rwa [show (s.setPc t q).pc u = s.pc u from if_neg other] at holds
  have here : (s.setPc t q).pc t = q := if_pos rfl
  -- the points that a thread has for itself, and the coroutine's body, are not entered
  have away : ∀ {p : Pc}, p = .wkSet ∨ p = .wkTest ∨ (∃ wk, p = .mark wk ∨ p = .relink wk) ∨
      p = .wkDone ∨ p = .wkDestroy ∨ p = .destroyNode ∨ (∃ wk, p = .body wk) → q ≠ p := by
    rintro p special rfl
    rcases goes with rfl | ⟨wk, rfl | rfl⟩ <;> simp at special
  constructor
  · exact fun u v left right => h.wk u v (kept inWk u left) (kept inWk v right)
  · exact fun u v left right => h.host u v (kept host u left) (kept host v right)
  · exact h.count
  · exact fun linked => absurd ((h.queued linked).1 t) active
  · intro u there
    rcases there with there | there <;> obtain ⟨was, other⟩ := before there (away (by simp))
    · exact absurd was (h.crowded active other).1.1
    · exact absurd was (h.crowded active other).1.2
  · intro up
    obtain ⟨u, flag⟩ := h.flag up
    rcases eq_or_ne u t with rfl | other
    · exact ⟨u, by rw [here, flagged]; exact flag⟩
    · exact ⟨u, by rwa [show (s.setPc t q).pc u = s.pc u from if_neg other]⟩
  · exact fun u flag => h.flagged u (kept (f := Pc.flagged) (fun up => flagged ▸ up) u flag)
  · exact fun u wk there => h.body u wk (before there (away (by simp))).1
  · intro suspended u
    by_contra up
    have was := kept host u (Bool.eq_true_of_not_eq_false up)
    rw [h.quiet suspended u] at was
    cases was
  · exact fun u holds => h.finishing u (kept finishing u holds)
  · intro u wk there
    rcases there with there | there <;> obtain ⟨was, other⟩ := before there (away (by simp))
    · exact absurd was ((h.crowded active other).2.1 wk).1
    · exact absurd was ((h.crowded active other).2.1 wk).2
  · intro u there final
    obtain ⟨was, other⟩ := before there (away (by simp))
    exact absurd final ((h.crowded active other).2.2.1 was)
  · intro u there
    obtain ⟨was, other⟩ := before there (away (by simp))
    exact absurd was (h.crowded active other).2.2.2
  · exact h.posted
  · exact h.excutor
  · exact fun u there => h.node u (before there (away (by simp))).1
  · exact .inl (h.alive active)
  · exact fun _ _ => .inr ⟨t, by rw [here]; exact stays⟩
  · exact h.late

theorem Owned.setRunning {t : T} (h : Owned s) (here : s.pc t = .wkSet) :
    Owned ({ s with runningOnExecutor := true }.setPc t .wkTest) := by
  cases h
  constructor <;> dsimp only [State.setPc] <;>
    grind -linarith [Pc.inWk, Pc.host, Pc.flagged, Pc.finishing, returnTo]

theorem Owned.resumeDone {t : T} (h : Owned s) (here : s.pc t = .wkTest) :
    Owned (s.setPc t .wkClear) := by
  apply h.move (by simp [here]) (.inl rfl) <;> rw [here]
  · exact id
  · simp [Pc.host]
  · rfl
  · simp [Pc.finishing]

theorem Owned.resume {t : T} (h : Owned s) (here : s.pc t = .wkTest) (more : s.coro ≠ .final) :
    Owned ({ s with coro := .running }.setPc t (.body true)) := by
  cases h
  constructor <;> dsimp only [State.setPc] <;>
    grind -linarith [Pc.inWk, Pc.host, Pc.flagged, Pc.finishing, returnTo]

theorem Owned.callback {t : T} (h : Owned s) (here : s.pc t = .idle)
    (suspended : s.coro = .suspended) :
    Owned ({ s with coro := .running }.setPc t (.body false)) := by
  cases h
  constructor <;> dsimp only [State.setPc] <;>
    grind -linarith [Pc.inWk, Pc.host, Pc.flagged, Pc.finishing, returnTo]

theorem Owned.suspend {t : T} {wk : Bool} (h : Owned s) (here : s.pc t = .body wk) :
    Owned ({ s with coro := .suspended }.setPc t (returnTo wk)) := by
  cases h
  constructor <;> dsimp only [State.setPc] <;>
    grind -linarith [Pc.inWk, Pc.host, Pc.flagged, Pc.finishing, returnTo]

theorem Owned.finalSuspend {t : T} {wk : Bool} (h : Owned s) (here : s.pc t = .body wk)
    (apart : ∀ u, s.pc u ≠ .wkDone) :
    Owned ({ s with coro := .final }.setPc t (.final wk)) := by
  cases h
  constructor <;> dsimp only [State.setPc] <;>
    grind -linarith [Pc.inWk, Pc.host, Pc.flagged, Pc.finishing, returnTo]

theorem Owned.awaitSuspend {t : T} {wk : Bool} (h : Owned s) (here : s.pc t = .final wk) :
    Owned (s.setPc t (.adapter wk)) := by
  apply h.move (by simp [here]) (.inr ⟨wk, .inl rfl⟩) <;> rw [here]
  · exact id
  · exact id
  · rfl
  · exact id

theorem Owned.userOnCompleted {t : T} {wk : Bool} (h : Owned s) (here : s.pc t = .adapter wk) :
    Owned (s.setPc t (.check wk)) := by
  apply h.move (by simp [here]) (.inr ⟨wk, .inr rfl⟩) <;> rw [here]
  · exact id
  · exact id
  · rfl
  · exact id

/-- A completion that sees the flag up leaves the frame to `wk_cb`. -/
theorem Owned.checkReturn {t : T} {wk : Bool} (h : Owned s) (here : s.pc t = .check wk)
    (up : ¬ (s.completionPosted = false ∧
    s.excutor = true ∧ s.runningOnExecutor = false)) :
    Owned (s.setPc t (returnTo wk)) := by
  cases h
  constructor <;> dsimp only [State.setPc] <;>
    grind -linarith [Pc.inWk, Pc.host, Pc.flagged, Pc.finishing, returnTo]

theorem Owned.mark {t : T} {wk : Bool} (h : Owned s) (here : s.pc t = .mark wk) :
    Owned
      ({ s with completionPosted := true, func := .destroyOnExecutor }.setPc t (.relink wk)) := by
  cases h
  constructor <;> dsimp only [State.setPc] <;>
    grind -linarith [Pc.inWk, Pc.host, Pc.flagged, Pc.finishing, returnTo]

omit [DecidableEq T] in
/-- With the coroutine done and nobody on the way to the flag, `wk_cb` is alone. -/
theorem Owned.alone_clear {t : T} (h : Owned s) (here : s.pc t = .wkClear)
    (apart : ∀ u, (s.pc u).finishing = false) (final : s.coro = .final) :
    ∀ u, u ≠ t → s.pc u = .idle := by
  intro u other
  have active : s.pc t ≠ .idle := by simp [here]
  have apart := apart u
  have notWk : (s.pc u).inWk = false := by
    by_contra up
    exact other (h.wk u t (by simpa using up) (by rw [here]; rfl))
  cases there : s.pc u with
  | idle => rfl
  | body wk =>
      have running := h.body u wk there
      rw [final] at running
      cases running
  | mark wk => exact (active ((h.posting u wk (.inl there)).2.2 t (Ne.symm other))).elim
  | relink wk => exact (active ((h.posting u wk (.inr there)).2.2 t (Ne.symm other))).elim
  | destroyNode => exact (h.node u there).elim
  | _ =>
      rw [there] at apart notWk
      simp [Pc.finishing, Pc.inWk] at apart notWk

theorem Owned.clearRunning {t : T} (h : Owned s) (here : s.pc t = .wkClear)
    (apart : ∀ u, (s.pc u).finishing = false) :
    Owned ({ s with runningOnExecutor := false }.setPc t .wkDone) := by
  have alone := h.alone_clear here apart
  cases h
  constructor <;> dsimp only [State.setPc] <;>
    grind -linarith [Pc.inWk, Pc.host, Pc.flagged, Pc.finishing]

theorem Owned.testDone {t : T} (h : Owned s) (here : s.pc t = .wkDone) :
    Owned (s.setPc t (if s.coro = .final then .wkDestroy else .idle)) := by
  cases h
  constructor <;> dsimp only [State.setPc] <;>
    grind -linarith [Pc.inWk, Pc.host, Pc.flagged, Pc.finishing, returnTo]

theorem Owned.destroyed' {t : T} (h : Owned s) (here : s.pc t = .wkDestroy) :
    Owned ({ s with completionPosted := false, destroys := s.destroys + 1 }.setPc t .idle) := by
  cases h
  constructor <;> dsimp only [State.setPc] <;>
    grind -linarith [Pc.inWk, Pc.host, Pc.flagged, Pc.finishing, returnTo]

omit [DecidableEq T] in
/-- A completion that sees the flag down is alone. -/
theorem Owned.alone {t : T} {wk : Bool} (h : Owned s) (here : s.pc t = .check wk)
    (clear : s.runningOnExecutor = false) : wk = false ∧ ∀ u, u ≠ t → s.pc u = .idle := by
  have down : ∀ u, (s.pc u).flagged = false := by
    intro u
    by_contra up
    rw [h.flagged u (by simpa using up)] at clear
    cases clear
  have final := (h.finishing t (by rw [here]; rfl)).1
  constructor
  · have own := down t
    rw [here] at own
    exact own
  · intro u other
    have flag := down u
    have active : s.pc t ≠ .idle := by simp [here]
    cases there : s.pc u with
    | idle => rfl
    | wkSet => exact (active ((h.early u (.inl there)).1 t (Ne.symm other))).elim
    | wkDone => exact (active (h.done u there final t (Ne.symm other))).elim
    | wkDestroy => exact (active ((h.destroy u there).2 t (Ne.symm other))).elim
    | destroyNode => exact (h.node u there).elim
    | wkTest =>
        rw [there] at flag
        cases flag
    | wkClear =>
        rw [there] at flag
        cases flag
    | _ => exact (other (h.host u t (by rw [there]; rfl) (by rw [here]; rfl))).elim

theorem Owned.checkMark {t : T} {wk : Bool} (h : Owned s) (here : s.pc t = .check wk)
    (clear : s.runningOnExecutor = false) : Owned (s.setPc t (.mark wk)) := by
  obtain ⟨own, idle⟩ := h.alone here clear
  cases h
  constructor <;> dsimp only [State.setPc] <;>
    grind -linarith [Pc.inWk, Pc.host, Pc.flagged, Pc.finishing]

/-! ## The executor's queue -/

theorem Owned.post {t : T} {wk : Bool} (h : Owned s) (here : s.pc t = .relink wk) :
    Owned ({ s with func := .wkCb, wsHead := addNewNolock s.wsHead .self }.setPc t
      (returnTo wk)) := by
  obtain ⟨rfl, final, idle⟩ := h.posting t wk (.inr here)
  have out : .self ∉ s.wsHead := fun mem => by
    have none := (h.queued mem).1 t
    rw [here] at none
    cases none
  have one : (addNewNolock s.wsHead .self).count .self = 1 := by
    rw [addNewNolock, List.erase_of_not_mem out, List.count_append, List.count_eq_zero.mpr out]
    simp
  have linked : (.self : Node O) ∈ addNewNolock s.wsHead .self := by simp [addNewNolock]
  cases h
  constructor <;> dsimp only [State.setPc] <;>
    grind -linarith [Pc.inWk, Pc.host, Pc.flagged, Pc.finishing, returnTo]

theorem Owned.popSelf {t : T} {rest : List (Node O)} (h : Owned s)
    (first : s.wsHead = .self :: rest) : Owned ({ s with wsHead := rest }.setPc t .wkSet) := by
  have linked : .self ∈ s.wsHead := by simp [first]
  have out : .self ∉ rest := by
    have count := h.count
    rw [first, List.count_cons_self] at count
    exact List.count_eq_zero.mp (by omega)
  have none : rest.count .self = 0 := List.count_eq_zero.mpr out
  cases h
  constructor
  case rest => exact fun _ _ => .inr ⟨t, by simp [State.setPc]⟩
  all_goals
    dsimp only [State.setPc]
    grind -linarith [Pc.inWk, Pc.host, Pc.flagged, Pc.finishing]

omit [DecidableEq T] in
/-- Nodes of others come and go. -/
theorem Owned.others {wsHead : List (Node O)} (h : Owned s)
    (mem : .self ∈ wsHead ↔ .self ∈ s.wsHead) (count : wsHead.count .self = s.wsHead.count .self) :
    Owned { s with wsHead := wsHead } := by
  cases h
  constructor <;> dsimp only <;> grind -linarith

/-! ## Every step -/

theorem Owned.step {a : Action T O} (h : Owned s) (apart : Apart s a) (run : step s a = some s') :
    Owned s' := by
  have same : ∀ t, s.pc t ≠ .idle → s.touch = s := fun t active => touch_eq h.late (h.alive active)
  cases a with
  | postOther o =>
      cases run
      refine h.others (by simp [mem_addNewNolock]) ?_
      rw [addNewNolock, List.count_append, List.count_erase_of_ne (by simp)]
      simp
  | workOnce t =>
      simp only [Worker.step, Option.ite_none_right_eq_some] at run
      obtain ⟨idle, run⟩ := run
      split at run
      · cases run
      · rename_i o rest first
        cases run
        exact h.others (by simp [first]) (by simp [first])
      · rename_i rest first
        have linked : .self ∈ s.wsHead := by simp [first]
        have alive : s.destroys = 0 := by
          rcases h.destroyed with zero | ⟨-, -, -, out⟩
          · exact zero
          · exact (out linked).elim
        rw [(h.queued linked).2.1, touch_eq h.late alive] at run
        cases run
        exact h.popSelf first
  | setRunning t =>
      simp only [Worker.step, Option.ite_none_right_eq_some, Option.some.injEq] at run
      obtain ⟨here, rfl⟩ := run
      rw [same t (by simp [here])]
      exact h.setRunning here
  | resume t =>
      simp only [Worker.step, Option.ite_none_right_eq_some] at run
      obtain ⟨here, run⟩ := run
      rw [same t (by simp [here])] at run
      split at run <;> cases run
      · exact h.resumeDone here
      · exact h.resume here ‹_›
  | callback t =>
      simp only [Worker.step, Option.ite_none_right_eq_some, Option.some.injEq] at run
      obtain ⟨⟨here, suspended⟩, rfl⟩ := run
      have alive : s.destroys = 0 := by
        rcases h.destroyed with zero | ⟨-, final, -⟩
        · exact zero
        · rw [suspended] at final
          cases final
      rw [touch_eq h.late alive]
      exact h.callback here suspended
  | suspend t =>
      simp only [Worker.step] at run
      split at run <;> cases run
      rename_i wk here
      rw [same t (by simp [here])]
      exact h.suspend here
  | finalSuspend t =>
      simp only [Worker.step] at run
      split at run <;> cases run
      rename_i wk here
      rw [same t (by simp [here])]
      exact h.finalSuspend here apart
  | awaitSuspend t =>
      simp only [Worker.step] at run
      split at run <;> cases run
      rename_i wk here
      rw [same t (by simp [here])]
      exact h.awaitSuspend here
  | userOnCompleted t =>
      simp only [Worker.step] at run
      split at run <;> cases run
      rename_i wk here
      rw [same t (by simp [here])]
      exact h.userOnCompleted here
  | check t =>
      simp only [Worker.step] at run
      split at run
      · rename_i wk here
        rw [same t (by simp [here])] at run
        split at run <;> cases run
        · rename_i down
          exact h.checkMark here down.2.2
        · exact h.checkReturn here ‹_›
      · cases run
  | mark t =>
      simp only [Worker.step] at run
      split at run <;> cases run
      rename_i wk here
      rw [same t (by simp [here])]
      exact h.mark here
  | post t =>
      simp only [Worker.step] at run
      split at run <;> cases run
      rename_i wk here
      rw [same t (by simp [here])]
      exact h.post here
  | clearRunning t =>
      simp only [Worker.step, Option.ite_none_right_eq_some, Option.some.injEq] at run
      obtain ⟨here, rfl⟩ := run
      rw [same t (by simp [here])]
      exact h.clearRunning here apart
  | testDone t =>
      simp only [Worker.step, Option.ite_none_right_eq_some, Option.some.injEq] at run
      obtain ⟨here, rfl⟩ := run
      rw [same t (by simp [here])]
      exact h.testDone here
  | destroy t =>
      simp only [Worker.step, Option.ite_none_right_eq_some, Option.some.injEq] at run
      obtain ⟨here, rfl⟩ := run
      rw [same t (by simp [here])]
      exact h.destroyed' here
  | destroyOnExecutor t =>
      simp only [Worker.step, Option.ite_none_right_eq_some] at run
      exact (h.node t run.1).elim

theorem owned_of_via (run : machine.Via Apart s) : Owned s :=
  run.invariant (fun _ => Owned.init) fun _ _ _ owned apart step => owned.step apart step

/-- **A posted coroutine is destroyed once.**  While the accesses of a completion on
another thread and those of `wk_cb` stay apart, the frame is destroyed at most once,
nothing touches it afterwards, and it has been destroyed when the coroutine is done,
no thread is in it and its node is not queued. -/
theorem destroyed_once (run : machine.Via Apart s) :
    s.destroys ≤ 1 ∧ s.late = false ∧
      (s.coro = .final → (∀ t, s.pc t = .idle) → .self ∉ s.wsHead → s.destroys = 1) := by
  have h := owned_of_via run
  refine ⟨?_, h.late, fun final idle out => ?_⟩
  · rcases h.destroyed with zero | ⟨one, -⟩ <;> omega
  · rcases h.destroyed with zero | ⟨one, -⟩
    · rcases h.rest final zero with linked | ⟨t, active⟩
      · exact (out linked).elim
      · exact (active (idle t)).elim
    · exact one

/-! ## Runs -/

instance [Fintype T] (s : State T O) (a : Action T O) : Decidable (Apart s a) :=
  match a with
  | .clearRunning _ => inferInstanceAs (Decidable (∀ u, (s.pc u).finishing = false))
  | .finalSuspend _ => inferInstanceAs (Decidable (∀ u, s.pc u ≠ .wkDone))
  | .postOther _ => .isTrue trivial
  | .workOnce _ => .isTrue trivial
  | .setRunning _ => .isTrue trivial
  | .resume _ => .isTrue trivial
  | .callback _ => .isTrue trivial
  | .suspend _ => .isTrue trivial
  | .awaitSuspend _ => .isTrue trivial
  | .userOnCompleted _ => .isTrue trivial
  | .check _ => .isTrue trivial
  | .mark _ => .isTrue trivial
  | .post _ => .isTrue trivial
  | .testDone _ => .isTrue trivial
  | .destroy _ => .isTrue trivial
  | .destroyOnExecutor _ => .isTrue trivial

/-- A coroutine just posted. -/
def start : State Bool Nat where
  wsHead := [.self]
  func := .wkCb
  excutor := true
  runningOnExecutor := false
  completionPosted := false
  coro := .initial
  pc := fun _ => .idle
  destroys := 0
  late := false

theorem start_init : init start := ⟨rfl, rfl, rfl, rfl, rfl, rfl, fun _ => rfl, rfl, rfl⟩

/-- The coroutine suspends on one worker and goes on on another one. -/
def moved : List (Action Bool Nat) :=
  [.workOnce false, .setRunning false, .resume false, .suspend false, .callback true]

/-- It completes behind the test of the first worker, posts its node and is destroyed
from the executor. -/
theorem destroyed_once_moved : ∃ s : State Bool Nat,
    machine.execOk Apart start (moved ++ ([.clearRunning false, .testDone false,
      .finalSuspend true, .awaitSuspend true, .userOnCompleted true, .check true, .mark true,
      .post true, .workOnce false, .setRunning false, .resume false, .clearRunning false,
      .testDone false, .destroy false] : List (Action Bool Nat))) = some s ∧
    s.destroys = 1 ∧ s.late = false := by
  obtain ⟨s, run, final, idle, out⟩ : ∃ s : State Bool Nat,
      machine.execOk Apart start (moved ++ ([.clearRunning false, .testDone false,
        .finalSuspend true, .awaitSuspend true, .userOnCompleted true, .check true, .mark true,
        .post true, .workOnce false, .setRunning false, .resume false, .clearRunning false,
        .testDone false, .destroy false] : List (Action Bool Nat))) = some s ∧
      s.coro = .final ∧ (∀ t, s.pc t = .idle) ∧ .self ∉ s.wsHead := by
    refine ⟨_, rfl, rfl, ?_, ?_⟩
    · intro t
      cases t <;> rfl
    · exact List.not_mem_nil
  obtain ⟨-, late, once⟩ := destroyed_once (Machine.Via.execOk (.init start_init) run)
  exact ⟨s, run, once final idle out, late⟩

/-- It completes between the clear of the first worker and its test of `done()`: that
worker destroys the frame, and so does the one that runs the node posted. -/
theorem not_destroyed_once : ¬ ∀ s : State Bool Nat, machine.Reachable s →
    s.destroys ≤ 1 ∧ s.late = false := by
  intro once
  obtain ⟨s, run, twice⟩ : ∃ s : State Bool Nat,
      machine.exec start (moved ++ ([.clearRunning false, .finalSuspend true, .awaitSuspend true,
        .userOnCompleted true, .check true, .mark true, .post true, .testDone false,
        .destroy false, .workOnce true, .setRunning true, .resume true, .clearRunning true,
        .testDone true, .destroy true] : List (Action Bool Nat))) = some s ∧ s.destroys = 2 := by
    refine ⟨_, rfl, ?_⟩
    rfl
  have least := (once s (Machine.Via.exec (.init start_init) run)).1
  omega

end CoWq.Worker
