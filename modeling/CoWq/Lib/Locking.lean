import CoWq.Lib.Machine
import Mathlib.Logic.Function.Basic

/-!
# Threads that share a spin lock

A thread runs operations one after the other.  An operation is a `Prog`: it takes and
releases the one lock and accesses the shared state, each access in one step.  The lock is
not recursive: `lock` is not possible as long as somebody holds it, the caller included.

* `Prog`, `Threads`, `locking`: the programs and the machine of all threads.
* `Prog.Balanced`: on every path `lock` is met without the lock and `unlock` with it, and the
  end without it, as far as every access meets `ok`.
* `disciplined`: then no run whose accesses meet `ok` has a thread wait for itself.
-/

namespace CoWq

/-- What is left of an operation.  An access may have no outcome, and the rest depends on
the state it has read. -/
inductive Prog (L σ : Type*)
  | done
  | lock (rest : Prog L σ)
  | unlock (rest : Prog L σ)
  | act (label : L) (f : σ → Option σ) (rest : σ → Prog L σ)

namespace Prog

variable {L σ : Type*}

/-- With `held` telling whether the thread has the lock. -/
def Balanced (ok : L → σ → Prop) : Bool → Prog L σ → Prop
  | held, done => held = false
  | held, lock rest => held = false ∧ Balanced ok true rest
  | held, unlock rest => held = true ∧ Balanced ok false rest
  | held, act label _ rest => ∀ s, ok label s → Balanced ok held (rest s)

variable {ok : L → σ → Prop} {held : Bool} {rest : Prog L σ}

@[simp] theorem balanced_done : Balanced ok held (done : Prog L σ) ↔ held = false := Iff.rfl

@[simp] theorem balanced_lock :
    Balanced ok held (lock rest) ↔ held = false ∧ Balanced ok true rest := Iff.rfl

@[simp] theorem balanced_unlock :
    Balanced ok held (unlock rest) ↔ held = true ∧ Balanced ok false rest := Iff.rfl

@[simp] theorem balanced_act {label : L} {f : σ → Option σ} {rest : σ → Prog L σ} :
    Balanced ok held (act label f rest) ↔ ∀ s, ok label s → Balanced ok held (rest s) := Iff.rfl

end Prog

/-- The threads `T`, the lock and what they share. -/
structure Threads (T L σ : Type*) where
  holder : Option T
  shared : σ
  prog : T → Prog L σ

namespace Threads

variable {T L σ O : Type*} [DecidableEq T]

inductive Action (T O : Type*)
  /-- a thread that is through with its last operation begins the next one -/
  | call (t : T) (op : O)
  | step (t : T)

/-- The turns of a thread that only spins are left out. -/
def step (program : O → Prog L σ) (s : Threads T L σ) :
    Action T O → Option (Threads T L σ)
  | .call t op =>
      match s.prog t with
      | .done => some { s with prog := Function.update s.prog t (program op) }
      | _ => none
  | .step t =>
      match s.prog t with
      | .done => none
      | .lock rest =>
          match s.holder with
          | none => some { s with holder := some t, prog := Function.update s.prog t rest }
          | some _ => none
      | .unlock rest => some { s with holder := none, prog := Function.update s.prog t rest }
      | .act _ f rest =>
          (f s.shared).map fun shared =>
            { s with shared := shared, prog := Function.update s.prog t (rest s.shared) }

/-- All threads, and the operations they may call. -/
def locking (T : Type*) [DecidableEq T] (program : O → Prog L σ) (init : σ → Prop) :
    Machine (Threads T L σ) (Action T O) where
  init s := s.holder = none ∧ init s.shared ∧ ∀ t, s.prog t = .done
  step := step program

/-- The access a thread is about to make meets `ok`. -/
def Meets (ok : L → σ → Prop) (s : Threads T L σ) : Action T O → Prop
  | .call _ _ => True
  | .step t =>
      match s.prog t with
      | .act label _ _ => ok label s.shared
      | _ => True

instance (ok : L → σ → Prop) [∀ label s, Decidable (ok label s)] (s : Threads T L σ)
    (act : Action T O) : Decidable (Meets ok s act) := by
  unfold Meets
  split
  · exact .isTrue trivial
  · split
    · infer_instance
    · exact .isTrue trivial

/-- A thread does not wait for itself, releases only what it holds, and holds nothing once
its operation is over. -/
structure Disciplined (s : Threads T L σ) (t : T) : Prop where
  lock : ∀ rest, s.prog t = .lock rest → s.holder ≠ some t
  unlock : ∀ rest, s.prog t = .unlock rest → s.holder = some t
  done : s.prog t = .done → s.holder ≠ some t

variable {ok : L → σ → Prop} {program : O → Prog L σ} {init : σ → Prop} {s s' : Threads T L σ}
  {act : Action T O}

/-- Every thread is at a point of its operation that fits the lock. -/
def Fits (ok : L → σ → Prop) (s : Threads T L σ) : Prop :=
  ∀ t, (s.prog t).Balanced ok (decide (s.holder = some t))

/-- A step of `t` that moves the lock at most between `t` and nobody. -/
theorem Fits.move {t : T} {holder : Option T} {shared : σ} {rest : Prog L σ} (fits : Fits ok s)
    (here : rest.Balanced ok (decide (holder = some t)))
    (others : ∀ u, u ≠ t → (holder = some u ↔ s.holder = some u)) :
    Fits ok { s with holder := holder, shared := shared, prog := Function.update s.prog t rest } := by
  intro u
  rcases eq_or_ne u t with rfl | other
  · simpa using here
  · have same := fits u
    simp only [← others u other] at same
    simpa [other] using same

theorem Fits.step (balanced : ∀ op, (program op).Balanced ok false) (fits : Fits ok s)
    (meets : Meets ok s act) (run : Threads.step program s act = some s') : Fits ok s' := by
  cases act with
  | call t op =>
      have here := fits t
      simp only [Threads.step] at run
      split at run <;> cases run
      rename_i ended
      rw [ended, Prog.balanced_done] at here
      exact fits.move (here ▸ balanced op) fun _ _ => .rfl
  | step t =>
      have here := fits t
      simp only [Threads.step] at run
      split at run
      · cases run
      · rename_i rest next
        split at run <;> cases run
        rename_i free
        rw [next, Prog.balanced_lock] at here
        refine fits.move (by simpa using here.2) fun u other => ?_
        simp [free, other.symm]
      · rename_i rest next
        cases run
        rw [next, Prog.balanced_unlock, decide_eq_true_iff] at here
        refine fits.move (by simpa using here.2) fun u other => ?_
        simp [here.1, other.symm]
      · rename_i label f rest next
        obtain ⟨shared, -, rfl⟩ := Option.map_eq_some_iff.mp run
        simp only [Meets, next] at meets
        rw [next, Prog.balanced_act] at here
        exact fits.move (here s.shared meets) fun _ _ => .rfl

theorem Fits.disciplined (fits : Fits ok s) (t : T) : Disciplined s t := by
  have here := fits t
  constructor
  · intro rest next
    rw [next, Prog.balanced_lock] at here
    exact of_decide_eq_false here.1
  · intro rest next
    rw [next, Prog.balanced_unlock] at here
    exact of_decide_eq_true here.1
  · intro ended
    rw [ended, Prog.balanced_done] at here
    exact of_decide_eq_false here

/-- **The rule**: operations that are balanced as far as their accesses meet `ok` keep the
discipline in every run in which they do. -/
theorem disciplined (balanced : ∀ op, (program op).Balanced ok false)
    (run : (locking T program init).Via (Meets ok) s) (t : T) : Disciplined s t := by
  refine (run.invariant (I := Fits ok) ?_ ?_).disciplined t
  · rintro s ⟨free, -, ended⟩ t
    simp [free, ended t]
  · intro s act s' fits meets run
    exact fits.step balanced meets run

end Threads

end CoWq
