import Mathlib.Logic.Function.Basic
import Mathlib.Data.Fintype.Defs
import Mathlib.Data.Fintype.Basic

/-!
# Threads around a mutex and a condition variable

The threads `T` are at program points `P`; some of the points are inside the mutex.

* `Exclusive`: a thread is inside if and only if it is the holder of the mutex.  One lemma for
  each way a thread moves: `enter`, `stay`, `leave`, `outside`.
* `CondVar`: the point of a thread that is blocked in `wait`, and the point it goes on from.
  `notifyOne` wakes one of the blocked threads, `notifyAll` every one; a thread that is not
  blocked yet is passed over.
-/

namespace CoWq.Monitor

variable {T P : Type*} [DecidableEq T]

/-- The threads at the points `inside` are those the mutex is held by. -/
def Exclusive (inside : P → Prop) (holder : Option T) (pc : T → P) : Prop :=
  ∀ t, inside (pc t) ↔ holder = some t

namespace Exclusive

variable {inside : P → Prop} {holder : Option T} {pc : T → P} {t u : T} {p : P}

theorem enter (exclusive : Exclusive inside none pc) (entered : inside p) :
    Exclusive inside (some t) (Function.update pc t p) := by
  intro u
  rcases eq_or_ne u t with rfl | other
  · simpa using entered
  · have outside := exclusive u
    simp only [Function.update_of_ne other, outside, reduceCtorEq, Option.some.injEq, false_iff]
    exact other.symm

theorem stay (exclusive : Exclusive inside holder pc) (here : inside (pc t)) (stays : inside p) :
    Exclusive inside holder (Function.update pc t p) := by
  intro u
  rcases eq_or_ne u t with rfl | other
  · simpa [stays] using (exclusive u).mp here
  · simpa only [Function.update_of_ne other] using exclusive u

theorem leave (exclusive : Exclusive inside holder pc) (here : inside (pc t)) (left : ¬inside p) :
    Exclusive inside none (Function.update pc t p) := by
  intro u
  rcases eq_or_ne u t with rfl | other
  · simpa using left
  · have holds := (exclusive t).mp here
    have outside := exclusive u
    simp only [Function.update_of_ne other, outside, holds, reduceCtorEq, Option.some.injEq,
      iff_false]
    exact other.symm

theorem outside (exclusive : Exclusive inside holder pc) (here : ¬inside (pc t))
    (stays : ¬inside p) : Exclusive inside holder (Function.update pc t p) := by
  intro u
  rcases eq_or_ne u t with rfl | other
  · have free := (exclusive u).not.mp here
    simp only [Function.update_self, stays, free]
  · simpa only [Function.update_of_ne other] using exclusive u

omit [DecidableEq T] in
/-- At most one thread is inside. -/
theorem unique (exclusive : Exclusive inside holder pc) (here : inside (pc t))
    (there : inside (pc u)) : u = t :=
  Option.some.inj (((exclusive u).mp there).symm.trans ((exclusive t).mp here))

omit [DecidableEq T] in
theorem not_inside (exclusive : Exclusive inside none pc) (t : T) : ¬inside (pc t) := by
  rw [exclusive t]
  exact (Option.some_ne_none t).symm

end Exclusive

/-- A condition variable: where a thread is blocked, and where it is once notified. -/
structure CondVar (P : Type*) where
  blocked : P
  woken : P
  differ : woken ≠ blocked

namespace CondVar

variable [DecidableEq P] (cv : CondVar P) {inside : P → Prop} {holder : Option T} {pc pc' : T → P}

/-- `notify_one`, told which of the blocked threads is chosen; nobody is if none is blocked. -/
def notifyOne [Fintype T] (pc : T → P) : Option T → Option (T → P)
  | some t => if pc t = cv.blocked then some (Function.update pc t cv.woken) else none
  | none => if ∀ t, pc t ≠ cv.blocked then some pc else none

def notifyAll (pc : T → P) : T → P :=
  fun t => if pc t = cv.blocked then cv.woken else pc t

variable {cv}

theorem notifyOne_inv [Fintype T] {chosen : Option T}
    (run : cv.notifyOne pc chosen = some pc') :
    (∃ t, pc t = cv.blocked ∧ pc' = Function.update pc t cv.woken) ∨
      (pc' = pc ∧ ∀ t, pc t ≠ cv.blocked) := by
  cases chosen with
  | some t =>
      obtain ⟨blocked, run⟩ := Option.ite_none_right_eq_some.mp run
      cases run
      exact .inl ⟨t, blocked, rfl⟩
  | none =>
      obtain ⟨awake, run⟩ := Option.ite_none_right_eq_some.mp run
      cases run
      exact .inr ⟨rfl, awake⟩

/-- Behind a `notify_one` somebody is not blocked. -/
theorem notifyOne_awake [Fintype T] [Inhabited T] {chosen : Option T}
    (run : cv.notifyOne pc chosen = some pc') : ∃ t, pc' t ≠ cv.blocked := by
  rcases notifyOne_inv run with ⟨t, _, rfl⟩ | ⟨rfl, awake⟩
  · refine ⟨t, ?_⟩
    rw [Function.update_self]
    exact cv.differ
  · exact ⟨default, awake default⟩

/-- A notified thread has been blocked; the others stay where they are. -/
theorem notifyOne_of_ne [Fintype T] {chosen : Option T} {t : T}
    (run : cv.notifyOne pc chosen = some pc') : pc' t = pc t ∨ pc t = cv.blocked := by
  rcases notifyOne_inv run with ⟨u, blocked, rfl⟩ | ⟨rfl, _⟩
  · rcases eq_or_ne t u with rfl | other
    · exact .inr blocked
    · exact .inl (Function.update_of_ne other _ _)
  · exact .inl rfl

omit [DecidableEq T] in
theorem notifyAll_ne_blocked (t : T) : cv.notifyAll pc t ≠ cv.blocked := by
  simp only [notifyAll]
  split_ifs with blocked
  · exact cv.differ
  · exact blocked

theorem exclusive_notifyOne [Fintype T] {chosen : Option T}
    (exclusive : Exclusive inside holder pc) (blocked : ¬inside cv.blocked)
    (woken : ¬inside cv.woken) (run : cv.notifyOne pc chosen = some pc') :
    Exclusive inside holder pc' := by
  rcases notifyOne_inv run with ⟨t, here, rfl⟩ | ⟨rfl, _⟩
  · rw [← here] at blocked
    exact exclusive.outside blocked woken
  · exact exclusive

omit [DecidableEq T] in
theorem exclusive_notifyAll (exclusive : Exclusive inside holder pc) (blocked : ¬inside cv.blocked)
    (woken : ¬inside cv.woken) : Exclusive inside holder (cv.notifyAll pc) := by
  intro t
  have here := exclusive t
  simp only [notifyAll]
  split_ifs with asleep
  · rw [asleep] at here
    exact iff_of_false woken (here.not.mp blocked)
  · exact here

end CondVar

end CoWq.Monitor
