import Mathlib.Data.List.Nodup

/-!
# Matchings of those who arrive one by one

Whoever arrives either waits or is matched with one who has waited so far; the log of the arrivals
holds each with the one it was matched with.

* `Matching`: the logs that come about so.
* `Met`: two are matched.  `Matching.met_unique`: each with one at most; `Matching.not_met_self`:
  nobody with itself.
* `Matching.returned_once`: nobody is handed out twice.
-/

namespace CoWq

variable {ι : Type*}

/-- The logs of the arrivals, the latest one first: who arrived, and whom it was matched with. -/
inductive Matching : List (ι × Option ι) → Prop
  | nil : Matching []
  | waits {log : List (ι × Option ι)} {x : ι} : Matching log → (∀ r, (x, r) ∉ log) →
    Matching ((x, none) :: log)
  | meets {log : List (ι × Option ι)} {x w : ι} : Matching log → (∀ r, (x, r) ∉ log) →
    (w, none) ∈ log → (∀ j, (j, some w) ∉ log) → Matching ((x, some w) :: log)

/-- One of the two was matched with the other when it arrived. -/
def Met (log : List (ι × Option ι)) (x y : ι) : Prop :=
  (x, some y) ∈ log ∨ (y, some x) ∈ log

theorem Met.symm {log : List (ι × Option ι)} {x y : ι} (met : Met log x y) : Met log y x :=
  Or.symm met

theorem Met.later {log : List (ι × Option ι)} {x y : ι} (met : Met log x y) (e : ι × Option ι) :
    Met (e :: log) x y :=
  met.imp (List.mem_cons_of_mem e) (List.mem_cons_of_mem e)

namespace Matching

variable {log : List (ι × Option ι)}

/-- Everybody arrives once. -/
theorem arrived_once (matching : Matching log) {x : ι} {r r' : Option ι} (here : (x, r) ∈ log)
    (there : (x, r') ∈ log) : r = r' := by
  induction matching with
  | nil => cases here
  | @waits log y _ fresh ih | @meets log y _ _ fresh _ _ ih =>
      rcases List.mem_cons.mp here with first | old
      · cases first
        rcases List.mem_cons.mp there with second | old
        · cases second
          rfl
        · exact (fresh _ old).elim
      · rcases List.mem_cons.mp there with second | old'
        · cases second
          exact (fresh _ old).elim
        · exact ih old old'

/-- Who is handed out has waited. -/
theorem waited (matching : Matching log) {j w : ι} (met : (j, some w) ∈ log) :
    (w, none) ∈ log := by
  induction matching with
  | nil => cases met
  | waits _ _ ih =>
      rcases List.mem_cons.mp met with first | old
      · cases first
      · exact List.mem_cons_of_mem _ (ih old)
  | meets _ _ waiting _ ih =>
      rcases List.mem_cons.mp met with first | old
      · cases first
        exact List.mem_cons_of_mem _ waiting
      · exact List.mem_cons_of_mem _ (ih old)

/-- Who is handed out is handed out to one only. -/
theorem returned_unique (matching : Matching log) {j k w : ι} (first : (j, some w) ∈ log)
    (second : (k, some w) ∈ log) : j = k := by
  induction matching with
  | nil => cases first
  | waits _ _ ih =>
      rcases List.mem_cons.mp first with new | old
      · cases new
      · rcases List.mem_cons.mp second with new | old'
        · cases new
        · exact ih old old'
  | meets _ _ _ unmet ih =>
      rcases List.mem_cons.mp first with new | old
      · cases new
        rcases List.mem_cons.mp second with new | old
        · cases new
          rfl
        · exact (unmet _ old).elim
      · rcases List.mem_cons.mp second with new | old'
        · cases new
          exact (unmet _ old).elim
        · exact ih old old'

/-- Nobody is handed out twice. -/
theorem returned_once (matching : Matching log) : (log.filterMap Prod.snd).Nodup := by
  induction matching with
  | nil => exact List.nodup_nil
  | waits _ _ ih => exact ih
  | meets _ _ _ unmet ih =>
      refine List.nodup_cons.mpr ⟨fun again => ?_, ih⟩
      obtain ⟨⟨j, r⟩, old, same⟩ := List.mem_filterMap.mp again
      cases same
      exact unmet j old

theorem not_returned_self (matching : Matching log) (x : ι) : (x, some x) ∉ log := by
  intro self
  cases matching.arrived_once self (matching.waited self)

theorem not_met_self (matching : Matching log) {x y : ι} (met : Met log x y) : x ≠ y := by
  rintro rfl
  exact met.elim (matching.not_returned_self x) (matching.not_returned_self x)

theorem met_unique (matching : Matching log) {x y z : ι} (met : Met log x y)
    (met' : Met log x z) : y = z := by
  rcases met with joined | returned
  · rcases met' with joined' | returned'
    · cases matching.arrived_once joined joined'
      rfl
    · cases matching.arrived_once joined (matching.waited returned')
  · rcases met' with joined' | returned'
    · cases matching.arrived_once joined' (matching.waited returned)
    · exact matching.returned_unique returned returned'

end Matching

end CoWq
