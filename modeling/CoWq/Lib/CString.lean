import Mathlib.Data.List.TakeWhile

/-!
# Strings of C in arrays of fixed size

An array is the list of its bytes.  An operation that would touch a byte outside of the array has
no result.

* `memcpy`, `strncpy`, `readString`, `strlen`: the operations.
* `cString`: the bytes in front of the first NUL.
* `memcpy_parts`, `strncpy_fits`, `readString_append_nul`: what the operations leave and find.
-/

namespace CString

/-- The bytes in front of the first NUL. -/
def cString (bytes : List UInt8) : List UInt8 :=
  bytes.takeWhile (· ≠ 0)

/-- `std::memcpy(array + at, source, n)` with all `n` bytes of the source -/
def memcpy (array : List UInt8) (start : Nat) (source : List UInt8) : Option (List UInt8) :=
  if start + source.length ≤ array.length then
    some (array.take start ++ source ++ array.drop (start + source.length))
  else none

/-- `std::strncpy(array, source, n)`: the string, filled up with NULs to `n` bytes.  It reads the
source up to its NUL, and `n` bytes at most. -/
def strncpy (array source : List UInt8) (n : Nat) : Option (List UInt8) :=
  if 0 ∈ source ∨ n ≤ source.length then
    memcpy array 0 ((cString source).take n ++ List.replicate (n - (cString source).length) 0)
  else none

/-- The string that a reader of the array finds. -/
def readString (array : List UInt8) : Option (List UInt8) :=
  if 0 ∈ array then some (cString array) else none

/-- `std::strlen(array)` -/
def strlen (array : List UInt8) : Option Nat :=
  (readString array).map List.length

/-! ## What the operations leave and find -/

/-- Copying into an array whose parts are known. -/
theorem memcpy_parts {before old after source : List UInt8} (same : old.length = source.length) :
    memcpy (before ++ old ++ after) before.length source = some (before ++ source ++ after) := by
  have fits : before.length + source.length ≤ (before ++ old ++ after).length := by
    simp only [List.length_append]
    omega
  rw [memcpy, if_pos fits]
  congr 2
  · rw [List.append_assoc, List.take_left]
  · rw [← same, ← List.length_append, List.drop_left]

theorem cString_append_nul {text rest : List UInt8} (plain : 0 ∉ text) :
    cString (text ++ 0 :: rest) = text := by
  have kept : ∀ b ∈ text, decide (b ≠ 0) = true := by
    intro b inside
    exact decide_eq_true fun zero => plain (zero ▸ inside)
  rw [cString, List.takeWhile_append_of_pos kept, List.takeWhile_cons_of_neg (by simp),
    List.append_nil]

theorem zero_notMem_cString (bytes : List UInt8) : 0 ∉ cString bytes := by
  intro inside
  have kept := List.mem_takeWhile_imp inside
  simp at kept

theorem cString_length_le (bytes : List UInt8) : (cString bytes).length ≤ bytes.length :=
  (List.takeWhile_prefix _).length_le

theorem cString_eq_self {text : List UInt8} (plain : 0 ∉ text) : cString text = text :=
  List.takeWhile_eq_self_iff.mpr fun _ inside => decide_eq_true fun zero => plain (zero ▸ inside)

/-- The string that `std::string::c_str` shows ends at the first NUL of the text. -/
theorem cString_c_str (text : List UInt8) : cString (text ++ [0]) = cString text := by
  induction text with
  | nil => rfl
  | cons b text ih =>
      unfold cString at ih ⊢
      by_cases zero : b = 0
      · rw [List.cons_append, List.takeWhile_cons_of_neg (by simp [zero]),
          List.takeWhile_cons_of_neg (by simp [zero])]
      · rw [List.cons_append, List.takeWhile_cons_of_pos (by simp [zero]),
          List.takeWhile_cons_of_pos (by simp [zero]), ih]

theorem readString_append_nul {text rest : List UInt8} (plain : 0 ∉ text) :
    readString (text ++ 0 :: rest) = some text := by
  rw [readString, if_pos (by simp), cString_append_nul plain]

/-- Without a NUL in the array a reader reads on behind it. -/
theorem readString_eq_none {array : List UInt8} (plain : 0 ∉ array) : readString array = none :=
  if_neg plain

/-- A string that fits, with NULs behind it. -/
theorem strncpy_fits {array text : List UInt8} {n : Nat} (room : n ≤ array.length)
    (fits : text.length ≤ n) :
    strncpy array (text ++ [0]) n = some (cString text ++
      List.replicate (n - (cString text).length) 0 ++ array.drop n) := by
  have shorter := cString_length_le text
  have amount : (cString text ++ List.replicate (n - (cString text).length) 0).length = n := by
    simp only [List.length_append, List.length_replicate]
    omega
  rw [strncpy, if_pos (.inl (by simp)), cString_c_str, List.take_of_length_le (by omega), memcpy,
    if_pos (by omega), List.take_zero, List.nil_append, amount, Nat.zero_add]

end CString
