import Mathlib.Order.WellFounded

/-!
# Machines, guarded reachability and fair executions

A `Machine` steps by named actions; an action that is not possible in a state
answers `none` there.  What the environment chooses (a clock value, the outcome
of a system call) is part of the action, so every step is a function.

* `Machine.Via ok`: the states reached when every step meets `ok` in the state
  it leaves.  `Machine.Reachable` is the unguarded case.
* `Machine.Leads ok`: what such steps lead to from a given state.
* `Machine.restrict ok`: the machine that takes such steps alone.
* `Machine.Via.invariant`: the induction rule for an invariant of guarded runs.
* `Machine.Execution` is an infinite run with stutters, `Execution.Fair` weak
  fairness for each class of actions, and `Execution.leadsTo` the ranking rule:
  a class that stays helpful until the rank drops is eventually taken.
-/

namespace CoWq

/-- A state machine whose actions fire with at most one outcome. -/
structure Machine (S A : Type*) where
  init : S → Prop
  step : S → A → Option S

namespace Machine

variable {S A : Type*} {M : Machine S A}

/-- Take the actions in order; `none` as soon as one of them is not possible. -/
def exec (M : Machine S A) : S → List A → Option S
  | s, [] => some s
  | s, a :: as => (M.step s a).bind fun t => M.exec t as

theorem exec_append (s : S) (as bs : List A) :
    M.exec s (as ++ bs) = (M.exec s as).bind fun t => M.exec t bs := by
  induction as generalizing s with
  | nil => rfl
  | cons a as ih =>
      simp only [List.cons_append, exec, Option.bind_assoc]
      exact congrArg _ (funext fun t => ih t)

/-- The states reached by steps that each meet `ok` in the state they leave. -/
inductive Via (M : Machine S A) (ok : S → A → Prop) : S → Prop
  | init {s : S} : M.init s → M.Via ok s
  | step {s t : S} {a : A} : M.Via ok s → ok s a → M.step s a = some t → M.Via ok t

/-- The states some run reaches. -/
abbrev Reachable (M : Machine S A) : S → Prop :=
  M.Via fun _ _ => True

variable {ok : S → A → Prop}

/-- The induction rule: what holds at the start and is kept by every allowed
step holds in every state the guarded runs reach. -/
theorem Via.invariant {I : S → Prop} (start : ∀ s, M.init s → I s)
    (kept : ∀ s a t, I s → ok s a → M.step s a = some t → I t) {s : S}
    (h : M.Via ok s) : I s := by
  induction h with
  | init initial => exact start _ initial
  | step _ allowed step ih => exact kept _ _ _ ih allowed step

/-- The same rule with the reachability of the source at hand. -/
theorem Via.invariant_reach {I : S → Prop} (start : ∀ s, M.init s → I s)
    (kept : ∀ s a t, M.Via ok s → I s → ok s a → M.step s a = some t → I t) {s : S}
    (h : M.Via ok s) : I s := by
  induction h with
  | init initial => exact start _ initial
  | step before allowed step ih => exact kept _ _ _ before ih allowed step

theorem Via.exec {s : S} (h : M.Via (fun _ _ => True) s) :
    ∀ {as : List A} {t : S}, M.exec s as = some t → M.Reachable t := by
  intro as
  induction as generalizing s with
  | nil =>
      intro t run
      cases run
      exact h
  | cons a as ih =>
      intro t run
      cases step : M.step s a with
      | none => simp [Machine.exec, step] at run
      | some u =>
          simp only [Machine.exec, step, Option.bind_some] at run
          exact ih (.step h trivial step) run

/-- A concrete run, checked step by step against a decidable guard. -/
def execOk (M : Machine S A) (ok : S → A → Prop) [∀ s a, Decidable (ok s a)] :
    S → List A → Option S
  | s, [] => some s
  | s, a :: as => if ok s a then (M.step s a).bind fun t => M.execOk ok t as else none

/-- What later steps that each meet `ok` lead to. -/
def Leads (M : Machine S A) (ok : S → A → Prop) : S → S → Prop :=
  Relation.ReflTransGen fun s t => ∃ a, ok s a ∧ M.step s a = some t

theorem Via.leads {s t : S} (h : M.Via ok s) (later : M.Leads ok s t) : M.Via ok t := by
  induction later with
  | refl => exact h
  | tail _ step ih =>
      obtain ⟨a, allowed, step⟩ := step
      exact .step ih allowed step

theorem leads_of_execOk [∀ s a, Decidable (ok s a)] : ∀ {as : List A} {s t : S},
    M.execOk ok s as = some t → M.Leads ok s t
  | [], _, _, run => by
      cases run
      exact .refl
  | a :: as, s, t, run => by
      by_cases allowed : ok s a
      · cases step : M.step s a with
        | none => simp [Machine.execOk, allowed, step] at run
        | some u =>
            simp only [Machine.execOk, allowed, step, if_true, Option.bind_some] at run
            exact .head ⟨a, allowed, step⟩ (leads_of_execOk run)
      · simp [Machine.execOk, allowed] at run

theorem Via.execOk [∀ s a, Decidable (ok s a)] {s t : S} {as : List A} (h : M.Via ok s)
    (run : M.execOk ok s as = some t) : M.Via ok t :=
  h.leads (leads_of_execOk run)

/-- The machine that takes no other steps than those that meet `ok`. -/
def restrict (M : Machine S A) (ok : S → A → Prop) [∀ s a, Decidable (ok s a)] : Machine S A where
  init := M.init
  step s a := if ok s a then M.step s a else none

theorem via_of_restrict [∀ s a, Decidable (ok s a)] {s : S} (h : (M.restrict ok).Reachable s) :
    M.Via ok s := by
  induction h with
  | init initial => exact .init initial
  | step _ _ run ih =>
      obtain ⟨allowed, run⟩ := Option.ite_none_right_eq_some.mp run
      exact .step ih allowed run

/-! ## Fair executions -/

/-- An infinite run: at each time an action fires or nothing happens. -/
structure Execution (M : Machine S A) where
  state : Nat → S
  act : Nat → Option A
  start : M.init (state 0)
  next : ∀ n, match act n with
    | none => state (n + 1) = state n
    | some a => M.step (state n) a = some (state (n + 1))

namespace Execution

variable {E : Execution M}

theorem step_of_act (E : Execution M) {n : Nat} {a : A} (h : E.act n = some a) :
    M.step (E.state n) a = some (E.state (n + 1)) := by
  have next := E.next n
  rw [h] at next
  exact next

theorem reachable (E : Execution M) (n : Nat) : M.Reachable (E.state n) := by
  induction n with
  | zero => exact .init E.start
  | succ n ih =>
      cases h : E.act n with
      | none =>
          have next := E.next n
          rw [h] at next
          exact next ▸ ih
      | some a => exact .step ih trivial (E.step_of_act h)

/-- A finite run, and nothing after it. -/
def ofRun {s t : S} {as : List A} (start : M.init s) (run : M.exec s as = some t) :
    Execution M where
  state n := (M.exec s (as.take n)).getD t
  act n := as[n]?
  start := start
  next n := by
    cases here : as[n]? with
    | none =>
        have past : as.length ≤ n := List.getElem?_eq_none_iff.mp here
        simp only [List.take_of_length_le past, List.take_of_length_le (Nat.le_succ_of_le past)]
    | some a =>
        have split : as = as.take n ++ a :: as.drop (n + 1) := by
          obtain ⟨inside, rfl⟩ := List.getElem?_eq_some_iff.mp here
          rw [← List.drop_eq_getElem_cons inside, List.take_append_drop]
        have whole := run
        rw [split, exec_append] at whole
        obtain ⟨u, before, rest⟩ := Option.bind_eq_some_iff.mp whole
        obtain ⟨v, step, -⟩ := Option.bind_eq_some_iff.mp rest
        have after : M.exec s (as.take (n + 1)) = some v := by
          rw [List.take_add_one, here, exec_append, before]
          simp [Machine.exec, step]
        simp only [before, after, Option.getD_some]
        exact step

theorem ofRun_after {s t : S} {as : List A} (start : M.init s) (run : M.exec s as = some t)
    {n : Nat} (past : as.length ≤ n) : (ofRun start run).state n = t := by
  simp only [ofRun, List.take_of_length_le past, run, Option.getD_some]

/-- The class `C` can fire in `s`. -/
def Enabled (M : Machine S A) (C : A → Prop) (s : S) : Prop :=
  ∃ a t, C a ∧ M.step s a = some t

/-- Weak fairness for `C`: when it can fire forever from some time on, it does. -/
def Fair (E : Execution M) (C : A → Prop) : Prop :=
  ∀ n, (∀ m, n ≤ m → Enabled M C (E.state m)) → ∃ m, n ≤ m ∧ ∃ a, E.act m = some a ∧ C a

/-- A run that ends where `C` cannot fire is fair to `C`. -/
theorem fair_ofRun {C : A → Prop} {s t : S} {as : List A} (start : M.init s)
    (run : M.exec s as = some t) (quiet : ¬ Enabled M C t) : (ofRun start run).Fair C := by
  intro n forever
  have late := forever (max n as.length) (Nat.le_max_left _ _)
  rw [ofRun_after start run (Nat.le_max_right _ _)] at late
  exact (quiet late).elim

/-- **The ranking rule.**  While `P` holds, the class `helpful s` can fire, its
steps lower the rank or end `P`, and every other step keeps `P`, does not raise
the rank and, at an unchanged rank, keeps the helpful class.  Then weak fairness
for each class ends `P`. -/
theorem leadsTo {K R : Type*} [Preorder R] [WellFoundedLT R] {C : K → A → Prop}
    {P : S → Prop} {rank : S → R} {helpful : S → K}
    (enabled : ∀ s, M.Reachable s → P s → Enabled M (C (helpful s)) s)
    (lowers : ∀ s a t, M.Reachable s → P s → C (helpful s) a → M.step s a = some t →
      ¬ P t ∨ rank t < rank s)
    (keeps : ∀ s a t, M.Reachable s → P s → M.step s a = some t →
      ¬ P t ∨ rank t < rank s ∨ (rank t ≤ rank s ∧ helpful t = helpful s))
    (fair : ∀ k, E.Fair (C k)) (n : Nat) :
    ∃ m, n ≤ m ∧ ¬ P (E.state m) := by
  by_contra never
  have always : ∀ m, n ≤ m → P (E.state m) := by
    intro m later
    by_contra ended
    exact never ⟨m, later, ended⟩
  -- from a time of least rank on, neither the rank nor the helpful class moves
  obtain ⟨r, ⟨m₀, late₀, rfl⟩, least⟩ := WellFounded.has_min (wellFounded_lt (α := R))
    {r | ∃ m, n ≤ m ∧ r = rank (E.state m)} ⟨_, n, le_refl n, rfl⟩
  have minimal : ∀ m, n ≤ m → ¬ rank (E.state m) < rank (E.state m₀) :=
    fun m later => least _ ⟨m, later, rfl⟩
  have frozen : ∀ k, rank (E.state (m₀ + k)) ≤ rank (E.state m₀) ∧
      helpful (E.state (m₀ + k)) = helpful (E.state m₀) := by
    intro k
    induction k with
    | zero => exact ⟨le_refl _, rfl⟩
    | succ k ih =>
        have late : n ≤ m₀ + k := by omega
        cases h : E.act (m₀ + k) with
        | none =>
            have same := E.next (m₀ + k)
            rw [h] at same
            rw [← Nat.add_assoc, same]
            exact ih
        | some a =>
            rcases keeps _ a _ (E.reachable _) (always _ late) (E.step_of_act h) with
              ended | drop | ⟨below, same⟩
            · exact (ended (always _ (by omega))).elim
            · exact (minimal (m₀ + k + 1) (by omega) (lt_of_lt_of_le drop ih.1)).elim
            · exact ⟨le_trans below ih.1, same.trans ih.2⟩
  have ready : ∀ m, m₀ ≤ m → Enabled M (C (helpful (E.state m₀))) (E.state m) := by
    intro m later
    have here := enabled _ (E.reachable m) (always m (by omega))
    have same := (frozen (m - m₀)).2
    rw [Nat.add_sub_cancel' later] at same
    rwa [same] at here
  obtain ⟨m, later, a, taken, helps⟩ := fair _ m₀ ready
  have same := frozen (m - m₀)
  rw [Nat.add_sub_cancel' later] at same
  rw [← same.2] at helps
  rcases lowers _ a _ (E.reachable m) (always m (by omega)) helps (E.step_of_act taken) with
    ended | drop
  · exact ended (always _ (by omega))
  · exact minimal (m + 1) (by omega) (lt_of_lt_of_le drop same.1)

end Execution

end Machine

end CoWq
