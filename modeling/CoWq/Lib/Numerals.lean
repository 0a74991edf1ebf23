import Mathlib.Algebra.Group.Nat.Defs
import Mathlib.Data.List.Basic

/-!
# Numerals in text

Numbers as a stream prints them, and texts that join several of them by a separator, such as
addresses.

* `numeral base n`: the text of `n`, without leading zeros and with small letters.
* `readNumeral`, `readGroups`: what such texts stand for.
* `readBounded`: decimal digits, given up above a bound.
* `readNumeral_numeral`, `readGroups_intercalate`, `readBounded_numeral`: printed texts stand for
  what was printed.
-/

namespace CoWq

/-- The text of a number. -/
def numeral (base n : Nat) : List UInt8 :=
  (Nat.toDigits base n).map fun c => UInt8.ofNat c.toNat

/-- The value of a digit. -/
def digitValue (c : UInt8) : Option Nat :=
  if 0x30 ≤ c ∧ c ≤ 0x39 then some (c.toNat - 0x30)
  else if 0x61 ≤ c ∧ c ≤ 0x66 then some (c.toNat - 0x57)
  else none

/-- The number that continues `n` with these digits. -/
def readDigits (base : Nat) : Nat → List UInt8 → Option Nat
  | n, [] => some n
  | n, c :: rest =>
      (digitValue c).bind fun d => if d < base then readDigits base (base * n + d) rest else none

/-- The number that a text stands for. -/
def readNumeral (base : Nat) (text : List UInt8) : Option Nat :=
  if text = [] then none else readDigits base 0 text

/-- The numbers of a text with separators. -/
def readGroups (base : Nat) (separator : UInt8) (text : List UInt8) : Option (List Nat) :=
  (text.splitOn separator).mapM (readNumeral base)

/-- The loop over decimal digits that gives up as soon as the number exceeds `bound`. -/
def readBounded (bound : Nat) : Nat → List UInt8 → Option Nat
  | n, [] => some n
  | n, c :: rest =>
      if 0x30 ≤ c ∧ c ≤ 0x39 then
        if bound < n * 10 + (c.toNat - 0x30) then none
        else readBounded bound (n * 10 + (c.toNat - 0x30)) rest
      else none

theorem digitValue_digitChar {d : Nat} (small : d < 16) :
    digitValue (UInt8.ofNat d.digitChar.toNat) = some d := by
  have all : ∀ d < 16, digitValue (UInt8.ofNat (Nat.digitChar d).toNat) = some d := by decide
  exact all d small

theorem readDigits_cons {base n d : Nat} {c : UInt8} (value : digitValue c = some d)
    (small : d < base) (rest : List UInt8) :
    readDigits base n (c :: rest) = readDigits base (base * n + d) rest := by
  rw [readDigits, value, Option.bind_some, if_pos small]

/-- A text that stands for a number starts with a digit. -/
theorem readDigits_cons_some {base n m : Nat} {c : UInt8} {rest : List UInt8}
    (read : readDigits base n (c :: rest) = some m) :
    ∃ d, digitValue c = some d ∧ d < base ∧ readDigits base (base * n + d) rest = some m := by
  rw [readDigits] at read
  obtain ⟨d, value, later⟩ := Option.bind_eq_some_iff.mp read
  obtain ⟨small, onward⟩ := Option.ite_none_right_eq_some.mp later
  exact ⟨d, value, small, onward⟩

theorem readDigits_append {base n m : Nat} {text : List UInt8}
    (first : readDigits base n text = some m) (rest : List UInt8) :
    readDigits base n (text ++ rest) = readDigits base m rest := by
  induction text generalizing n with
  | nil =>
      cases first
      rfl
  | cons c text ih =>
      obtain ⟨d, value, small, onward⟩ := readDigits_cons_some first
      rw [List.cons_append, readDigits_cons value small, ih onward]

/-- Every byte of such a text is a digit. -/
theorem digitValue_of_read {base n m : Nat} {text : List UInt8}
    (read : readDigits base n text = some m) {c : UInt8} (mem : c ∈ text) :
    digitValue c ≠ none := by
  induction text generalizing n with
  | nil => exact absurd mem List.not_mem_nil
  | cons head text ih =>
      obtain ⟨d, value, -, onward⟩ := readDigits_cons_some read
      rcases List.mem_cons.mp mem with rfl | later
      · rw [value]
        exact Option.some_ne_none d
      · exact ih onward later

/-- The digits below ten. -/
theorem decimal_iff {c : UInt8} {d : Nat} : digitValue c = some d ∧ d < 10 ↔
    (0x30 ≤ c ∧ c ≤ 0x39) ∧ c.toNat - 0x30 = d := by
  unfold digitValue
  simp only [UInt8.le_iff_toNat_le]
  have zero : (0x30 : UInt8).toNat = 48 := rfl
  have nine : (0x39 : UInt8).toNat = 57 := rfl
  have small : (0x61 : UInt8).toNat = 97 := rfl
  rw [zero, nine, small]
  constructor
  · rintro ⟨value, below⟩
    split at value
    · next inside =>
        cases value
        exact ⟨inside, rfl⟩
    · split at value
      · cases value
        omega
      · cases value
  · rintro ⟨inside, rfl⟩
    rw [if_pos inside]
    exact ⟨rfl, by omega⟩

/-- Digits make a number no smaller. -/
theorem readDigits_le {base n m : Nat} {text : List UInt8} (positive : 0 < base)
    (read : readDigits base n text = some m) : n ≤ m := by
  induction text generalizing n with
  | nil =>
      cases read
      exact Nat.le_refl _
  | cons c rest ih =>
      obtain ⟨d, -, -, onward⟩ := readDigits_cons_some read
      have more := ih onward
      have grown := Nat.le_mul_of_pos_left n positive
      omega

/-- The bound only refuses numbers that exceed it. -/
theorem readBounded_eq_some {bound n m : Nat} {text : List UInt8} (within : n ≤ bound) :
    readBounded bound n text = some m ↔ readDigits 10 n text = some m ∧ m ≤ bound := by
  induction text generalizing n with
  | nil =>
      simp only [readBounded, readDigits, Option.some.injEq]
      constructor
      · rintro rfl
        exact ⟨rfl, within⟩
      · exact And.left
  | cons c rest ih =>
      rw [readBounded]
      by_cases digit : 0x30 ≤ c ∧ c ≤ 0x39
      · obtain ⟨value, below⟩ := decimal_iff.mpr ⟨digit, rfl⟩
        rw [if_pos digit, readDigits_cons value below, Nat.mul_comm n]
        by_cases large : bound < 10 * n + (c.toNat - 0x30)
        · rw [if_pos large]
          constructor
          · rintro ⟨⟩
          · rintro ⟨read, most⟩
            have least := readDigits_le (by decide) read
            omega
        · rw [if_neg large, ih (by omega)]
      · rw [if_neg digit]
        constructor
        · rintro ⟨⟩
        · rintro ⟨read, -⟩
          obtain ⟨d, value, below, -⟩ := readDigits_cons_some read
          exact (digit (decimal_iff.mp ⟨value, below⟩).1).elim

section Printed

variable {base : Nat} (more : 1 < base) (most : base ≤ 16)
include more most

theorem readDigits_numeral (n : Nat) : readDigits base 0 (numeral base n) = some n := by
  induction n using Nat.base_induction base more with
  | single d small =>
      rw [numeral, Nat.toDigits_of_lt_base small, List.map_singleton,
        readDigits_cons (digitValue_digitChar (by omega)) small, Nat.mul_zero, Nat.zero_add]
      rfl
  | digit n d small positive ih =>
      have last : readDigits base n (numeral base d) = some (base * n + d) := by
        rw [numeral, Nat.toDigits_of_lt_base small, List.map_singleton,
          readDigits_cons (digitValue_digitChar (by omega)) small]
        rfl
      rw [numeral, ← Nat.toDigits_append_toDigits more positive small, List.map_append]
      exact (readDigits_append ih _).trans last

theorem readNumeral_numeral (n : Nat) : readNumeral base (numeral base n) = some n := by
  have some' : numeral base n ≠ [] := by
    intro none'
    exact Nat.toDigits_ne_nil (List.map_eq_nil_iff.mp none')
  rw [readNumeral, if_neg some', readDigits_numeral more most]

/-- A text of numerals with separators stands for these numbers. -/
theorem readGroups_intercalate {separator : UInt8} (apart : digitValue separator = none)
    {groups : List Nat} (some' : groups ≠ []) :
    readGroups base separator ([separator].intercalate (groups.map (numeral base))) =
      some groups := by
  have cut : ([separator].intercalate (groups.map (numeral base))).splitOn separator =
      groups.map (numeral base) := by
    refine List.splitOn_intercalate separator (fun text mem inside => ?_) (by simpa using some')
    obtain ⟨n, -, rfl⟩ := List.mem_map.mp mem
    exact digitValue_of_read (readDigits_numeral more most n) inside apart
  rw [readGroups, cut]
  clear cut some'
  induction groups with
  | nil => rfl
  | cons n groups ih =>
      rw [List.map_cons, List.mapM_cons, readNumeral_numeral more most, ih]
      rfl

end Printed

theorem readBounded_numeral {bound n : Nat} (within : n ≤ bound) :
    readBounded bound 0 (numeral 10 n) = some n :=
  (readBounded_eq_some (Nat.zero_le _)).mpr
    ⟨readDigits_numeral (by decide) (by decide) n, within⟩

theorem numeral_length_le {n k : Nat} (some' : 0 < k) (small : n < 10 ^ k) :
    (numeral 10 n).length ≤ k := by
  rw [numeral, List.length_map]
  exact (Nat.length_toDigits_le_iff (by decide) some').mpr small

theorem numeral_ne_nil (n : Nat) : numeral 10 n ≠ [] := by
  intro none'
  exact Nat.toDigits_ne_nil (List.map_eq_nil_iff.mp none')

/-- Every character of a decimal numeral is a digit. -/
theorem numeral_decimal {n : Nat} {c : UInt8} (mem : c ∈ numeral 10 n) : 0x30 ≤ c ∧ c ≤ 0x39 := by
  have read : readDigits 10 0 (numeral 10 n) = some n :=
    readDigits_numeral (by decide) (by decide) n
  generalize numeral 10 n = text at mem read
  generalize (0 : Nat) = m at read
  induction text generalizing m with
  | nil => exact absurd mem List.not_mem_nil
  | cons head text ih =>
      obtain ⟨d, value, small, onward⟩ := readDigits_cons_some read
      rcases List.mem_cons.mp mem with rfl | later
      · exact (decimal_iff.mp ⟨value, small⟩).1
      · exact ih later _ onward

end CoWq
