import Mathlib.Data.List.Basic
import Mathlib.Data.List.Infix

/-!
# Searching in texts

The searches of `std::string`, over lists of any type, with positions counted from the front.

* `find`, `rfind`: the first and the last occurrence of an element.
* `findText`: the first occurrence of a text.
* `find_eq_some`, `rfind_eq_some`, `findText_eq_some`: a position cuts the text in two.
* `find_cut`, `rfind_cut`, `findText_cut`: the position at which a text has been put together.
* `findText_skip`, `findText_more`: a search behind a text, and one in a longer text.
-/

namespace TextSearch

variable {α : Type*} [DecidableEq α]

/-- `text.find(c)` -/
def find (c : α) (text : List α) : Option Nat := text.idxOf? c

/-- `text.rfind(c)` -/
def rfind (c : α) : List α → Option Nat
  | [] => none
  | x :: rest =>
      match rfind c rest with
      | some i => some (i + 1)
      | none => if x = c then some 0 else none

/-- `text.find(pattern)` -/
def findText (pattern : List α) : List α → Option Nat
  | [] => if pattern = [] then some 0 else none
  | x :: rest =>
      if pattern <+: x :: rest then some 0 else (findText pattern rest).map (· + 1)

variable {c : α} {text before after pattern : List α} {i : Nat}

theorem find_eq_none : find c text = none ↔ c ∉ text := List.idxOf?_eq_none_iff

theorem find_cut (absent : c ∉ before) : find c (before ++ c :: after) = some before.length := by
  induction before with
  | nil => simp [find, List.idxOf?_cons]
  | cons x before ih =>
      obtain ⟨other, absent⟩ := not_or.mp (List.mem_cons.not.mp absent)
      have later := ih absent
      unfold find at later ⊢
      rw [List.cons_append, List.idxOf?_cons, if_neg (by simpa using fun same => other same.symm),
        later]
      rfl

theorem find_eq_some (found : find c text = some i) :
    ∃ before after, text = before ++ c :: after ∧ c ∉ before ∧ before.length = i := by
  have inside : c ∈ text := by
    by_contra absent
    rw [find_eq_none.mpr absent] at found
    cases found
  obtain ⟨before, after, rfl, absent⟩ := List.eq_append_cons_of_mem inside
  rw [find_cut absent] at found
  exact ⟨before, after, rfl, absent, Option.some.inj found⟩

theorem rfind_eq_none : rfind c text = none ↔ c ∉ text := by
  induction text with
  | nil => simp [rfind]
  | cons x rest ih =>
      rw [rfind]
      cases found : rfind c rest with
      | some i =>
          have inside : c ∈ rest := by
            by_contra absent
            rw [ih.mpr absent] at found
            cases found
          simp [inside]
      | none =>
          have absent := ih.mp found
          by_cases same : x = c
          · simp [same]
          · simp [same, absent, Ne.symm same]

theorem rfind_cut (absent : c ∉ after) : rfind c (before ++ c :: after) = some before.length := by
  induction before with
  | nil =>
      rw [List.nil_append, rfind, rfind_eq_none.mpr absent]
      exact if_pos rfl
  | cons x before ih =>
      rw [List.cons_append, rfind, ih]
      rfl

theorem rfind_eq_some (found : rfind c text = some i) :
    ∃ before after, text = before ++ c :: after ∧ c ∉ after ∧ before.length = i := by
  induction text generalizing i with
  | nil => cases found
  | cons x rest ih =>
      rw [rfind] at found
      cases later : rfind c rest with
      | some j =>
          obtain ⟨before, after, rfl, absent, size⟩ := ih later
          rw [later] at found
          cases found
          exact ⟨x :: before, after, rfl, absent, by rw [List.length_cons, size]⟩
      | none =>
          rw [later] at found
          obtain ⟨same, zero⟩ := Option.ite_none_right_eq_some.mp found
          cases zero
          exact ⟨[], rest, by rw [same, List.nil_append], rfind_eq_none.mp later, rfl⟩

/-- The first element of the pattern does not occur in front of it. -/
theorem findText_cut (absent : c ∉ before) :
    findText (c :: pattern) (before ++ (c :: pattern) ++ after) = some before.length := by
  induction before with
  | nil =>
      rw [List.nil_append, List.cons_append, findText, if_pos]
      · rfl
      · exact List.prefix_append (c :: pattern) after
  | cons x before ih =>
      obtain ⟨other, absent⟩ := not_or.mp (List.mem_cons.not.mp absent)
      rw [List.cons_append, List.cons_append, findText, if_neg, ih absent]
      · rfl
      · intro start
        exact other (List.cons_prefix_cons.mp start).1

theorem findText_eq_some (found : findText pattern text = some i) :
    ∃ before after, text = before ++ pattern ++ after ∧ before.length = i := by
  induction text generalizing i with
  | nil =>
      obtain ⟨empty, zero⟩ := Option.ite_none_right_eq_some.mp found
      cases zero
      exact ⟨[], [], by rw [empty]; rfl, rfl⟩
  | cons x rest ih =>
      rw [findText] at found
      split at found
      · next start =>
          obtain ⟨after, rest⟩ := start
          cases found
          exact ⟨[], after, rest.symm, rfl⟩
      · obtain ⟨j, later, rfl⟩ := Option.map_eq_some_iff.mp found
        obtain ⟨before, after, rfl, size⟩ := ih later
        exact ⟨x :: before, after, rfl, by rw [List.length_cons, size]⟩

/-- What does not hold the first element of the pattern is passed over. -/
theorem findText_skip (absent : c ∉ before) :
    findText (c :: pattern) (before ++ text) =
      (findText (c :: pattern) text).map (before.length + ·) := by
  induction before with
  | nil => simp only [List.nil_append, List.length_nil, Nat.zero_add, Option.map_id']
  | cons x before ih =>
      obtain ⟨other, absent⟩ := not_or.mp (List.mem_cons.not.mp absent)
      have apart : ¬ c :: pattern <+: x :: (before ++ text) := fun start =>
        other (List.cons_prefix_cons.mp start).1
      rw [List.cons_append, findText, if_neg apart, ih absent, Option.map_map]
      refine congrArg (fun f => Option.map f _) (funext fun i => ?_)
      simp only [Function.comp_apply, List.length_cons]
      omega

/-- An occurrence stays the first one when the text goes on. -/
theorem findText_more (found : findText pattern text = some i) (after : List α) :
    findText pattern (text ++ after) = some i := by
  induction text generalizing i with
  | nil =>
      obtain ⟨rfl, zero⟩ := Option.ite_none_right_eq_some.mp found
      cases zero
      cases after with
      | nil => rfl
      | cons x after => exact if_pos List.nil_prefix
  | cons x rest ih =>
      rw [findText] at found
      rw [List.cons_append, findText]
      split at found
      · next start =>
          have still : pattern <+: x :: (rest ++ after) :=
            start.trans (List.prefix_append (x :: rest) after)
          rw [if_pos still]
          exact found
      · next apart =>
          obtain ⟨j, later, rfl⟩ := Option.map_eq_some_iff.mp found
          obtain ⟨before, behind, rfl, -⟩ := findText_eq_some later
          have still : ¬ pattern <+: x :: ((before ++ pattern ++ behind) ++ after) := by
            intro start
            refine apart (List.prefix_of_prefix_length_le start
              (List.prefix_append (x :: (before ++ pattern ++ behind)) after) ?_)
            simp only [List.length_cons, List.length_append]
            omega
          rw [if_neg still, ih later]
          rfl

end TextSearch
