import Mathlib.Data.List.Infix

/-!
# Machines that answer

A `Mealy` machine answers each input with a list of outputs.

* `Mealy.Agree`: two machines have put out the same at every point of a sequence of inputs.
* `Mealy.Along`: a condition on state and input holds at every step of a sequence.
* `Mealy.agree_iff`: a relation kept by the steps that meet a condition, where exactly these give
  equal outputs, turns the first into the second.
* `Mealy.Keyed`: a machine whose inputs are each for one part of the state; `Keyed.run_outputs`,
  `Keyed.run_outputs`: each part goes its own way, however the inputs are interleaved.
-/

namespace CoWq

structure Mealy (S I O : Type*) where
  step : S → I → List O × S

namespace Mealy

variable {S T I O : Type*}

/-- The outputs of a sequence of inputs, and the state behind it. -/
def run (m : Mealy S I O) (s : S) : List I → List O × S
  | [] => ([], s)
  | i :: is => ((m.step s i).1 ++ (m.run (m.step s i).2 is).1, (m.run (m.step s i).2 is).2)

/-- At every point of the sequence both machines have put out the same. -/
def Agree (m : Mealy S I O) (n : Mealy T I O) (s : S) (t : T) (is : List I) : Prop :=
  ∀ done, done <+: is → (m.run s done).1 = (n.run t done).1

/-- Every input of the sequence meets `ok` in the state it finds. -/
def Along (m : Mealy S I O) (ok : S → I → Prop) (s : S) (is : List I) : Prop :=
  ∀ done i, done ++ [i] <+: is → ok (m.run s done).2 i

variable {m : Mealy S I O} {n : Mealy T I O} {s : S} {t : T} {i : I} {is : List I}

theorem agree_cons (same : (m.step s i).1 = (n.step t i).1) :
    Agree m n s t (i :: is) ↔ Agree m n (m.step s i).2 (n.step t i).2 is := by
  constructor
  · intro agree done part
    have both := agree (i :: done) ((List.prefix_cons_inj i).mpr part)
    rw [run, run, same] at both
    exact List.append_cancel_left both
  · intro agree done part
    rcases List.prefix_cons_iff.mp part with rfl | ⟨done, rfl, front⟩
    · rfl
    · rw [run, run, same, agree done front]

/-- Agreement starts with the first outputs. -/
theorem Agree.head (agree : Agree m n s t (i :: is)) : (m.step s i).1 = (n.step t i).1 := by
  have first := agree [i] ((List.prefix_cons_inj i).mpr List.nil_prefix)
  simpa [run] using first

theorem along_cons {ok : S → I → Prop} :
    m.Along ok s (i :: is) ↔ ok s i ∧ m.Along ok (m.step s i).2 is := by
  constructor
  · intro along
    refine ⟨along [] i ((List.prefix_cons_inj i).mpr List.nil_prefix), fun done j part => ?_⟩
    exact along (i :: done) j ((List.prefix_cons_inj i).mpr part)
  · rintro ⟨first, later⟩ done j part
    cases done with
    | nil =>
        obtain ⟨rfl, -⟩ := List.cons_prefix_cons.mp part
        exact first
    | cons k done =>
        obtain ⟨rfl, front⟩ := List.cons_prefix_cons.mp part
        exact later done j front

/-- **The simulation rule.**  If steps from related states put out the same exactly when `ok` holds
and then lead to related states, two machines agree on the sequences along which `ok` holds. -/
theorem agree_iff {R : S → T → Prop} {ok : S → I → Prop}
    (outputs : ∀ s t i, R s t → ((m.step s i).1 = (n.step t i).1 ↔ ok s i))
    (kept : ∀ s t i, R s t → ok s i → R (m.step s i).2 (n.step t i).2) (related : R s t) :
    Agree m n s t is ↔ m.Along ok s is := by
  induction is generalizing s t with
  | nil =>
      constructor
      · intro _ done i part
        exact absurd (List.prefix_nil.mp part) (by simp)
      · intro _ done part
        rw [List.prefix_nil.mp part]
        rfl
  | cons i is ih =>
      rw [along_cons]
      constructor
      · intro agree
        have fits := (outputs s t i related).mp agree.head
        exact ⟨fits, (ih (kept s t i related fits)).mp ((agree_cons agree.head).mp agree)⟩
      · rintro ⟨fits, later⟩
        exact (agree_cons ((outputs s t i related).mpr fits)).mpr
          ((ih (kept s t i related fits)).mpr later)

/-! ## Runs -/

@[simp] theorem run_nil (m : Mealy S I O) (s : S) : m.run s [] = ([], s) := rfl

theorem run_cons (m : Mealy S I O) (s : S) (i : I) (is : List I) :
    m.run s (i :: is) =
      ((m.step s i).1 ++ (m.run (m.step s i).2 is).1, (m.run (m.step s i).2 is).2) := rfl

theorem run_append (m : Mealy S I O) (s : S) (is later : List I) :
    m.run s (is ++ later) =
      ((m.run s is).1 ++ (m.run (m.run s is).2 later).1, (m.run (m.run s is).2 later).2) := by
  induction is generalizing s with
  | nil => rfl
  | cons i is ih => rw [List.cons_append, run_cons, run_cons, ih, List.append_assoc]

/-- Inputs that do nothing can be left out. -/
theorem run_filter {m : Mealy S I O} {useful : I → Bool}
    (idle : ∀ s i, useful i = false → m.step s i = ([], s)) (s : S) (is : List I) :
    m.run s (is.filter useful) = m.run s is := by
  induction is generalizing s with
  | nil => rfl
  | cons i is ih =>
      cases use : useful i with
      | true => rw [List.filter_cons_of_pos use, run_cons, run_cons, ih]
      | false =>
          rw [List.filter_cons_of_neg (by simp [use]), ih, run_cons, idle s i use]
          rfl

/-! ## Machines of many parts -/

variable {K P : Type*}

/-- Each input is for one part of the state, which answers it as a machine of its own. -/
structure Keyed (m : Mealy S I O) (part : Mealy P I O) (view : S → K → P) (key : I → K)
    (source : O → K) : Prop where
  outputs : ∀ s i, (m.step s i).1 = (part.step (view s (key i)) i).1
  own : ∀ s i, view (m.step s i).2 (key i) = (part.step (view s (key i)) i).2
  others : ∀ s i k, k ≠ key i → view (m.step s i).2 k = view s k
  signed : ∀ s i, ∀ o ∈ (m.step s i).1, source o = key i

namespace Keyed

variable {m : Mealy S I O} {part : Mealy P I O} {view : S → K → P} {key : I → K} {source : O → K}
variable [DecidableEq K]

/-- What comes from a part is what its own inputs have made it put out. -/
theorem run_outputs (keyed : Keyed m part view key source) (k : K) (s : S) (is : List I) :
    (m.run s is).1.filter (fun o => source o = k) =
      (part.run (view s k) (is.filter fun i => key i = k)).1 := by
  induction is generalizing s with
  | nil => rfl
  | cons i is ih =>
      rw [run_cons, List.filter_append, ih]
      by_cases mine : key i = k
      · subst mine
        have all : (m.step s i).1.filter (fun o => source o = key i) = (m.step s i).1 :=
          List.filter_eq_self.mpr fun o mem => decide_eq_true (keyed.signed s i o mem)
        rw [List.filter_cons_of_pos (by simp), run_cons, all, keyed.outputs, keyed.own]
      · have none' : (m.step s i).1.filter (fun o => source o = k) = [] :=
          List.filter_eq_nil_iff.mpr fun o mem same =>
            mine ((keyed.signed s i o mem).symm.trans (of_decide_eq_true same))
        rw [List.filter_cons_of_neg (by simp [mine]), none', List.nil_append,
          keyed.others s i k (Ne.symm mine)]

end Keyed

end Mealy

end CoWq
