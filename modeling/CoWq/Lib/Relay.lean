import Mathlib.Data.List.Basic

/-!
# A relay with a parking place

A relay takes items over one by one and hands them on.  An item is carried by the one who took it
over, or parked and later carried by the one who clears the parking place.

* `Relay.Step`: the moves of the items.  The carrier hands an item on only while the parking place
  and the hands of the clearer are empty.
* `Relay.Whole`: what was taken is, in order, what was handed on, what the clearer has, what is
  parked and what the carrier has.  `Relay.Step.whole`: every move keeps it.
-/

namespace CoWq

variable {α : Type*}

/-- Where the items of a relay are. -/
structure Relay (α : Type*) where
  taken : List α
  given : List α
  clearing : List α
  parked : List α
  carried : List α

namespace Relay

/-- The moves of the items. -/
inductive Step : Relay α → Relay α → Prop
  | take {r : Relay α} (a : α) :
    Step r { r with taken := r.taken ++ [a], carried := r.carried ++ [a] }
  | park {r : Relay α} {a : α} {rest : List α} : r.carried = a :: rest →
    Step r { r with parked := r.parked ++ [a], carried := rest }
  | clear {r : Relay α} : r.clearing = [] → Step r { r with clearing := r.parked, parked := [] }
  | withdraw {r : Relay α} : Step r { r with parked := [], carried := r.parked ++ r.carried }
  | giveCleared {r : Relay α} {a : α} {rest : List α} : r.clearing = a :: rest →
    Step r { r with given := r.given ++ [a], clearing := rest }
  | giveCarried {r : Relay α} {a : α} {rest : List α} : r.clearing = [] → r.parked = [] →
    r.carried = a :: rest → Step r { r with given := r.given ++ [a], carried := rest }

/-- Nothing is lost, nothing comes twice and nothing is overtaken. -/
def Whole (r : Relay α) : Prop :=
  r.taken = r.given ++ r.clearing ++ r.parked ++ r.carried

theorem Step.whole {r r' : Relay α} (step : Step r r') (whole : r.Whole) : r'.Whole := by
  simp only [Whole] at whole ⊢
  cases step with
  | take a => rw [whole, List.append_assoc]
  | park carried => rw [whole, carried, List.append_assoc, List.append_assoc]; simp
  | clear clearing => rw [whole, clearing]; simp
  | withdraw => rw [whole]; simp
  | giveCleared clearing => rw [whole, clearing]; simp
  | giveCarried clearing parked carried => rw [whole, clearing, parked, carried]; simp

theorem Whole.length {r : Relay α} (whole : r.Whole) : r.taken.length =
    r.given.length + r.clearing.length + r.parked.length + r.carried.length := by
  rw [whole]
  simp only [List.length_append]

end Relay

end CoWq
