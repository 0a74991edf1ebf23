import Mathlib.Data.List.Basic

/-!
# Base64

Bytes as texts of letters with six bits each, padded to groups of four.

* `encode`, `decode`: the text of some bytes, and the bytes of a text.
* `decode_encode`: a text stands for the bytes that it was made of.
* `length_encode`, `mem_encode`: the length and the letters of a text.
-/

namespace Base64

/-- `A` to `Z`, `a` to `z`, `0` to `9`, `+` and `/` -/
def alphabet : List UInt8 :=
  (List.range 26).map (fun i => UInt8.ofNat (65 + i)) ++
    (List.range 26).map (fun i => UInt8.ofNat (97 + i)) ++
    (List.range 10).map (fun i => UInt8.ofNat (48 + i)) ++ [43, 47]

/-- `=` -/
def pad : UInt8 := 61

/-- The letter of six bits. -/
def letter (d : Nat) : UInt8 := alphabet.getD d 0

/-- The six bits of a letter. -/
def sextet (c : UInt8) : Option Nat := alphabet.idxOf? c

def encode : List UInt8 → List UInt8
  | [] => []
  | [a] => [letter (a.toNat / 4), letter (a.toNat % 4 * 16), pad, pad]
  | [a, b] =>
      [letter (a.toNat / 4), letter (a.toNat % 4 * 16 + b.toNat / 16), letter (b.toNat % 16 * 4),
        pad]
  | a :: b :: c :: rest =>
      letter (a.toNat / 4) :: letter (a.toNat % 4 * 16 + b.toNat / 16) ::
        letter (b.toNat % 16 * 4 + c.toNat / 64) :: letter (c.toNat % 64) :: encode rest

/-- The bytes of a text; padding stands at its end only. -/
def decode : List UInt8 → Option (List UInt8)
  | [] => some []
  | w :: x :: y :: z :: rest => do
      let i ← sextet w
      let j ← sextet x
      if rest = [] ∧ y = pad ∧ z = pad then
        return [UInt8.ofNat (i * 4 + j / 16)]
      let k ← sextet y
      if rest = [] ∧ z = pad then
        return [UInt8.ofNat (i * 4 + j / 16), UInt8.ofNat (j % 16 * 16 + k / 4)]
      let l ← sextet z
      let more ← decode rest
      return UInt8.ofNat (i * 4 + j / 16) :: UInt8.ofNat (j % 16 * 16 + k / 4) ::
        UInt8.ofNat (k % 4 * 64 + l) :: more
  | _ => none

variable {d : Nat} {bytes : List UInt8}

theorem sextet_letter (small : d < 64) : sextet (letter d) = some d := by
  have all : ∀ d < 64, sextet (letter d) = some d := by decide
  exact all d small

theorem letter_mem (small : d < 64) : letter d ∈ alphabet := by
  have all : ∀ d < 64, letter d ∈ alphabet := by decide
  exact all d small

theorem letter_ne_pad (small : d < 64) : letter d ≠ pad := by
  have all : ∀ d < 64, letter d ≠ pad := by decide
  exact all d small

theorem ofNat_toNat {n : Nat} {a : UInt8} (same : n = a.toNat) : UInt8.ofNat n = a := by
  rw [same, UInt8.ofNat_toNat]

/-- **The round trip.** -/
theorem decode_encode (bytes : List UInt8) : decode (encode bytes) = some bytes := by
  induction bytes using encode.induct with
  | case1 => rfl
  | case2 a =>
      have boundA := a.toNat_lt
      have byte : UInt8.ofNat (a.toNat / 4 * 4 + a.toNat % 4 * 16 / 16) = a :=
        ofNat_toNat (by omega)
      rw [encode, decode, sextet_letter (by omega), sextet_letter (by omega)]
      simp only [Option.bind_eq_bind, Option.bind_some, and_self, if_true, byte]
      rfl
  | case3 a b =>
      have boundA := a.toNat_lt
      have boundB := b.toNat_lt
      have second : letter (b.toNat % 16 * 4) ≠ pad := letter_ne_pad (by omega)
      have first : UInt8.ofNat
          (a.toNat / 4 * 4 + (a.toNat % 4 * 16 + b.toNat / 16) / 16) = a :=
        ofNat_toNat (by omega)
      have last : UInt8.ofNat
          ((a.toNat % 4 * 16 + b.toNat / 16) % 16 * 16 + b.toNat % 16 * 4 / 4) = b :=
        ofNat_toNat (by omega)
      rw [encode, decode, sextet_letter (by omega), sextet_letter (by omega),
        sextet_letter (by omega)]
      simp only [Option.bind_eq_bind, Option.bind_some, second, false_and, and_false, if_false,
        and_self, if_true, first, last]
      rfl
  | case4 a b c rest ih =>
      have boundA := a.toNat_lt
      have boundB := b.toNat_lt
      have boundC := c.toNat_lt
      have final : letter (c.toNat % 64) ≠ pad := letter_ne_pad (by omega)
      have first : UInt8.ofNat
          (a.toNat / 4 * 4 + (a.toNat % 4 * 16 + b.toNat / 16) / 16) = a :=
        ofNat_toNat (by omega)
      have second : UInt8.ofNat ((a.toNat % 4 * 16 + b.toNat / 16) % 16 * 16 +
          (b.toNat % 16 * 4 + c.toNat / 64) / 4) = b :=
        ofNat_toNat (by omega)
      have third : UInt8.ofNat
          ((b.toNat % 16 * 4 + c.toNat / 64) % 4 * 64 + c.toNat % 64) = c :=
        ofNat_toNat (by omega)
      rw [encode, decode, sextet_letter (by omega), sextet_letter (by omega),
        sextet_letter (by omega), sextet_letter (by omega), ih]
      simp only [Option.bind_eq_bind, Option.bind_some, final, and_false, if_false, first, second,
        third]
      rfl

theorem encode_injective : Function.Injective encode := by
  intro bytes bytes' same
  have decoded := congrArg decode same
  rw [decode_encode, decode_encode] at decoded
  exact Option.some.inj decoded

theorem length_encode (bytes : List UInt8) :
    (encode bytes).length = (bytes.length + 2) / 3 * 4 := by
  induction bytes using encode.induct with
  | case1 => rfl
  | case2 a => simp only [encode, List.length_cons, List.length_nil]
  | case3 a b => simp only [encode, List.length_cons, List.length_nil]
  | case4 a b c rest ih =>
      rw [encode]
      simp only [List.length_cons, ih]
      omega

/-- Nothing else stands in a text. -/
theorem mem_encode {x : UInt8} (mem : x ∈ encode bytes) : x ∈ alphabet ∨ x = pad := by
  induction bytes using encode.induct with
  | case1 => cases mem
  | case2 a =>
      have boundA := a.toNat_lt
      simp only [encode, List.mem_cons, List.not_mem_nil, or_false] at mem
      rcases mem with rfl | rfl | rfl | rfl
      · exact .inl (letter_mem (by omega))
      · exact .inl (letter_mem (by omega))
      · exact .inr rfl
      · exact .inr rfl
  | case3 a b =>
      have boundA := a.toNat_lt
      have boundB := b.toNat_lt
      simp only [encode, List.mem_cons, List.not_mem_nil, or_false] at mem
      rcases mem with rfl | rfl | rfl | rfl
      · exact .inl (letter_mem (by omega))
      · exact .inl (letter_mem (by omega))
      · exact .inl (letter_mem (by omega))
      · exact .inr rfl
  | case4 a b c rest ih =>
      have boundA := a.toNat_lt
      have boundB := b.toNat_lt
      have boundC := c.toNat_lt
      simp only [encode, List.mem_cons] at mem
      rcases mem with rfl | rfl | rfl | rfl | mem
      · exact .inl (letter_mem (by omega))
      · exact .inl (letter_mem (by omega))
      · exact .inl (letter_mem (by omega))
      · exact .inl (letter_mem (by omega))
      · exact ih mem

end Base64
