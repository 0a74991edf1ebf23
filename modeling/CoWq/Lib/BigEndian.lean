import Mathlib.Data.Nat.Bitwise
import Mathlib.Tactic.Ring

/-!
# Big-endian words

* `BigEndian.encode w n`: the `w` bytes of `n`, most significant first.
* `BigEndian.decode`: the number the bytes of a list stand for.
* `BigEndian.decode_encode`, `BigEndian.encode_decode`: the round trips, the first one exact
  below `256 ^ w`.
* `BigEndian.shiftOr_toNat`: one step of a shift-and-or loop over bytes.
-/

namespace CoWq.BigEndian

/-- The `w` bytes of `n`, most significant first. -/
def encode : Nat → Nat → List UInt8
  | 0, _ => []
  | w + 1, n => UInt8.ofNat (n / 256 ^ w) :: encode w n

/-- The number that continues `acc` with the given bytes. -/
def decodeFrom (acc : Nat) (bytes : List UInt8) : Nat :=
  bytes.foldl (fun acc b => acc * 256 + b.toNat) acc

/-- The number the bytes stand for, most significant first. -/
def decode (bytes : List UInt8) : Nat := decodeFrom 0 bytes

@[simp] theorem encode_length (w n : Nat) : (encode w n).length = w := by
  induction w with
  | zero => rfl
  | succ w ih => simp [encode, ih]

@[simp] theorem decodeFrom_nil (acc : Nat) : decodeFrom acc [] = acc := rfl

@[simp] theorem decodeFrom_cons (acc : Nat) (b : UInt8) (bytes : List UInt8) :
    decodeFrom acc (b :: bytes) = decodeFrom (acc * 256 + b.toNat) bytes := rfl

theorem decodeFrom_encode (acc w n : Nat) :
    decodeFrom acc (encode w n) = acc * 256 ^ w + n % 256 ^ w := by
  induction w generalizing acc with
  | zero => simp [encode, Nat.mod_one]
  | succ w ih =>
      have top : (UInt8.ofNat (n / 256 ^ w)).toNat = n / 256 ^ w % 256 := by
        simp [UInt8.toNat_ofNat']
      rw [encode, decodeFrom_cons, ih, top, Nat.mod_pow_succ]
      ring

theorem encode_eq_map (w n : Nat) :
    encode w n = (List.range w).map fun i => UInt8.ofNat (n / 256 ^ (w - 1 - i)) := by
  induction w with
  | zero => rfl
  | succ w ih =>
      rw [encode, ih, List.range_succ_eq_map, List.map_cons, List.map_map]
      refine congrArg₂ List.cons rfl (List.map_congr_left fun i inside => ?_)
      have same : w + 1 - 1 - (i + 1) = w - 1 - i := by omega
      simp only [Function.comp_apply, same]

theorem decode_encode {w n : Nat} (small : n < 256 ^ w) : decode (encode w n) = n := by
  rw [decode, decodeFrom_encode, Nat.zero_mul, Nat.zero_add, Nat.mod_eq_of_lt small]

theorem decodeFrom_eq (acc : Nat) (bytes : List UInt8) :
    decodeFrom acc bytes = acc * 256 ^ bytes.length + decode bytes := by
  induction bytes generalizing acc with
  | nil => simp [decode]
  | cons b bytes ih =>
      rw [decode, decodeFrom_cons, decodeFrom_cons, ih, ih (0 * 256 + b.toNat), List.length_cons]
      ring

theorem decode_lt (bytes : List UInt8) : decode bytes < 256 ^ bytes.length := by
  induction bytes with
  | nil => simp [decode]
  | cons b bytes ih =>
      have bound : b.toNat < 256 := b.toNat_lt
      have whole := decodeFrom_eq b.toNat bytes
      rw [decode, decodeFrom_cons, Nat.zero_mul, Nat.zero_add, whole, List.length_cons]
      calc b.toNat * 256 ^ bytes.length + decode bytes
          < (b.toNat + 1) * 256 ^ bytes.length := by rw [Nat.succ_mul]; omega
        _ ≤ 256 * 256 ^ bytes.length := Nat.mul_le_mul_right _ bound
        _ = 256 ^ (bytes.length + 1) := (Nat.pow_succ').symm

/-- The bytes of the number that bytes stand for. -/
theorem encode_decode (bytes : List UInt8) : encode bytes.length (decode bytes) = bytes := by
  have all : ∀ n, encode bytes.length (n * 256 ^ bytes.length + decode bytes) = bytes := by
    induction bytes with
    | nil => exact fun _ => rfl
    | cons b bytes ih =>
        intro n
        have bound := decode_lt bytes
        have value : n * 256 ^ (b :: bytes).length + decode (b :: bytes) =
            (n * 256 + b.toNat) * 256 ^ bytes.length + decode bytes := by
          rw [decode, decodeFrom_cons, decodeFrom_eq, List.length_cons]
          ring
        have top : ((n * 256 + b.toNat) * 256 ^ bytes.length + decode bytes) /
            256 ^ bytes.length = n * 256 + b.toNat := by
          rw [Nat.mul_comm, Nat.mul_add_div (Nat.pow_pos (by decide)), Nat.div_eq_of_lt bound,
            Nat.add_zero]
        have first : UInt8.ofNat (n * 256 + b.toNat) = b := by
          apply UInt8.toNat_inj.mp
          have small : b.toNat < 256 := b.toNat_lt
          rw [UInt8.toNat_ofNat']
          omega
        rw [value, List.length_cons, encode, top, first, ih]
  simpa using all 0

/-! ## Words of a machine -/

/-- A disjunction of shifted bytes is a sum. -/
theorem shiftOr (a : Nat) (b : UInt8) : a * 256 ||| b.toNat = a * 256 + b.toNat := by
  have bound : b.toNat < 2 ^ 8 := b.toNat_lt
  have split := Nat.two_pow_add_eq_or_of_lt bound a
  rw [Nat.mul_comm a 256]
  exact split.symm

/-- One step of the loop `word = (word << 8) | byte`, when nothing is shifted out. -/
theorem shiftOr_toNat (word : UInt64) (room : word.toNat < 2 ^ 56) (b : UInt8) :
    ((word <<< 8) ||| b.toUInt64).toNat = word.toNat * 256 + b.toNat := by
  have shifted : (word <<< 8).toNat = word.toNat * 256 := by
    rw [UInt64.toNat_shiftLeft]
    have eight : (8 : UInt64).toNat % 64 = 8 := rfl
    rw [eight, Nat.shiftLeft_eq, Nat.mod_eq_of_lt (by omega)]
  rw [UInt64.toNat_or, shifted, UInt8.toNat_toUInt64, shiftOr]

/-- The loop over the bytes of a word computes `decode`. -/
theorem foldl_toNat (bytes : List UInt8) (word : UInt64)
    (room : word.toNat < 256 ^ (8 - bytes.length)) (short : bytes.length ≤ 8) :
    (bytes.foldl (fun (word : UInt64) b => (word <<< 8) ||| b.toUInt64) word).toNat =
      decodeFrom word.toNat bytes := by
  induction bytes generalizing word with
  | nil => rfl
  | cons b bytes ih =>
      rw [List.length_cons] at room short
      have less : 256 ^ (8 - (bytes.length + 1)) ≤ 256 ^ 7 :=
        Nat.pow_le_pow_right (by decide) (by omega)
      have step := shiftOr_toNat word (by omega) b
      have grow : 256 ^ (8 - bytes.length) = 256 ^ (8 - (bytes.length + 1)) * 256 := by
        rw [← Nat.pow_succ]
        congr 1
        omega
      have bound : b.toNat < 256 := b.toNat_lt
      rw [List.foldl_cons, ih _ (by rw [step]; omega) (by omega), step, decodeFrom_cons]

/-- Two bytes put together stand for a number below `2 ^ 16`. -/
theorem two_toNat (b b' : UInt8) :
    ((b.toUInt64 <<< 8) ||| b'.toUInt64).toNat = decode [b, b'] := by
  have bound : b.toNat < 256 := b.toNat_lt
  rw [shiftOr_toNat _ (by rw [UInt8.toNat_toUInt64]; omega), UInt8.toNat_toUInt64]
  simp [decode]

/-- The byte a word holds above bit `k`. -/
theorem byte_of_word (word : UInt64) {k : Nat} (inside : k < 64) :
    ((word >>> UInt64.ofNat k) &&& 0xFF).toUInt8 = UInt8.ofNat (word.toNat / 2 ^ k) := by
  apply UInt8.toNat_inj.mp
  have amount : (UInt64.ofNat k).toNat % 64 = k := by
    rw [UInt64.toNat_ofNat']
    omega
  have low : (0xFF : UInt64).toNat = 2 ^ 8 - 1 := rfl
  rw [UInt64.toNat_toUInt8, UInt64.toNat_and, UInt64.toNat_shiftRight, amount, low,
    Nat.and_two_pow_sub_one_eq_mod, Nat.shiftRight_eq_div_pow, UInt8.toNat_ofNat', Nat.mod_mod]

/-- The shift loop that writes a word writes its eight bytes. -/
theorem encode_word (word : UInt64) :
    ((List.range 8).map fun i => ((word >>> UInt64.ofNat (56 - i * 8)) &&& 0xFF).toUInt8) =
      encode 8 word.toNat := by
  rw [encode_eq_map]
  refine List.map_congr_left fun i inside => ?_
  have small : i < 8 := List.mem_range.mp inside
  have same : 2 ^ (56 - i * 8) = 256 ^ (8 - 1 - i) := by
    rw [show 256 = 2 ^ 8 from rfl, ← Nat.pow_mul]
    congr 1
    omega
  rw [byte_of_word word (by omega), same]

/-- Two bytes hold a word below `2 ^ 16`. -/
theorem word_of_two (word : UInt64) (small : word.toNat < 2 ^ 16) :
    ((((word >>> 8) &&& 0xFF).toUInt8.toUInt64 <<< 8) |||
      ((word &&& 0xFF).toUInt8.toUInt64)) = word := by
  have high : ((word >>> 8) &&& 0xFF).toUInt8 = UInt8.ofNat (word.toNat / 2 ^ 8) :=
    byte_of_word word (by decide)
  have low : (word &&& 0xFF).toUInt8 = UInt8.ofNat (word.toNat / 2 ^ 0) := by
    rw [← byte_of_word word (by decide)]
    simp
  apply UInt64.toNat_inj.mp
  rw [high, low, shiftOr_toNat]
  · simp only [UInt8.toNat_toUInt64, UInt8.toNat_ofNat']
    omega
  · simp only [UInt8.toNat_toUInt64, UInt8.toNat_ofNat']
    omega

/-- Two bytes hold a 16-bit word. -/
theorem word16_of_two (word : UInt16) :
    ((((word >>> 8) &&& 0xFF).toUInt8.toUInt16 <<< 8) |||
      ((word &&& 0xFF).toUInt8.toUInt16)) = word := by
  have bound : word.toNat < 2 ^ 16 := word.toNat_lt
  have eight : (8 : UInt16).toNat % 16 = 8 := rfl
  have low : (0xFF : UInt16).toNat = 2 ^ 8 - 1 := rfl
  have high : ((word >>> 8) &&& 0xFF).toUInt8.toNat = word.toNat / 2 ^ 8 := by
    rw [UInt16.toNat_toUInt8, UInt16.toNat_and, UInt16.toNat_shiftRight, eight, low,
      Nat.and_two_pow_sub_one_eq_mod, Nat.shiftRight_eq_div_pow]
    omega
  have last : (word &&& 0xFF).toUInt8.toNat = word.toNat % 2 ^ 8 := by
    rw [UInt16.toNat_toUInt8, UInt16.toNat_and, low, Nat.and_two_pow_sub_one_eq_mod]
    omega
  apply UInt16.toNat_inj.mp
  rw [UInt16.toNat_or, UInt16.toNat_shiftLeft, eight, UInt8.toNat_toUInt16, UInt8.toNat_toUInt16,
    high, Nat.shiftLeft_eq, Nat.mod_eq_of_lt (by omega), shiftOr, last]
  omega

/-- Four bytes put together stand for the number that they encode. -/
theorem four_toNat (b b' c c' : UInt8) :
    ((b.toUInt32 <<< 24) ||| (b'.toUInt32 <<< 16) ||| (c.toUInt32 <<< 8) ||| c'.toUInt32).toNat =
      decode [b, b', c, c'] := by
  have bound := b.toNat_lt
  have bound' := b'.toNat_lt
  have boundC := c.toNat_lt
  have boundC' := c'.toNat_lt
  have shifted : ∀ (b : UInt8) (k : Nat), k ≤ 24 →
      (b.toUInt32 <<< UInt32.ofNat k).toNat = 2 ^ k * b.toNat := by
    intro b k inside
    have amount : (UInt32.ofNat k).toNat % 32 = k := by
      rw [UInt32.toNat_ofNat']
      omega
    have fits : b.toNat * 2 ^ k < 2 ^ 32 :=
      calc b.toNat * 2 ^ k
          < 2 ^ 8 * 2 ^ k := Nat.mul_lt_mul_of_pos_right b.toNat_lt (Nat.two_pow_pos k)
        _ ≤ 2 ^ 8 * 2 ^ 24 := Nat.mul_le_mul_left _ (Nat.pow_le_pow_right (by decide) inside)
        _ = 2 ^ 32 := by rw [← Nat.pow_add]
    rw [UInt32.toNat_shiftLeft, UInt8.toNat_toUInt32, amount, Nat.shiftLeft_eq,
      Nat.mod_eq_of_lt fits, Nat.mul_comm]
  have first : (b.toUInt32 <<< 24).toNat = 2 ^ 24 * b.toNat := shifted b 24 (by decide)
  have second : (b'.toUInt32 <<< 16).toNat = 2 ^ 16 * b'.toNat := shifted b' 16 (by decide)
  have third : (c.toUInt32 <<< 8).toNat = 2 ^ 8 * c.toNat := shifted c 8 (by decide)
  rw [UInt32.toNat_or, UInt32.toNat_or, UInt32.toNat_or, first, second, third,
    UInt8.toNat_toUInt32, ← Nat.two_pow_add_eq_or_of_lt (by omega)]
  have two : 2 ^ 24 * b.toNat + 2 ^ 16 * b'.toNat = 2 ^ 16 * (2 ^ 8 * b.toNat + b'.toNat) := by
    omega
  rw [two, ← Nat.two_pow_add_eq_or_of_lt (by omega)]
  have three : 2 ^ 16 * (2 ^ 8 * b.toNat + b'.toNat) + 2 ^ 8 * c.toNat =
      2 ^ 8 * (2 ^ 16 * b.toNat + 2 ^ 8 * b'.toNat + c.toNat) := by omega
  rw [three, ← Nat.two_pow_add_eq_or_of_lt (by omega)]
  simp only [decode, decodeFrom_cons, decodeFrom_nil]
  omega

/-- A byte taken out of a 32-bit word and shifted back to its place. -/
theorem byte_of_word32 (word : UInt32) {k : Nat} (inside : k ≤ 24) :
    (((word >>> UInt32.ofNat k) &&& 0xFF).toUInt8.toUInt32 <<< UInt32.ofNat k).toNat =
      2 ^ k * (word.toNat / 2 ^ k % 256) := by
  have amount : (UInt32.ofNat k).toNat % 32 = k := by
    rw [UInt32.toNat_ofNat']
    omega
  have low : (0xFF : UInt32).toNat = 2 ^ 8 - 1 := rfl
  have fits : word.toNat / 2 ^ k % 2 ^ 8 * 2 ^ k < 2 ^ 32 :=
    calc word.toNat / 2 ^ k % 2 ^ 8 * 2 ^ k
        < 2 ^ 8 * 2 ^ k :=
          Nat.mul_lt_mul_of_pos_right (Nat.mod_lt _ (by decide)) (Nat.two_pow_pos k)
      _ ≤ 2 ^ 8 * 2 ^ 24 := Nat.mul_le_mul_left _ (Nat.pow_le_pow_right (by decide) inside)
      _ = 2 ^ 32 := by rw [← Nat.pow_add]
  rw [UInt32.toNat_shiftLeft, UInt8.toNat_toUInt32, UInt32.toNat_toUInt8, UInt32.toNat_and,
    UInt32.toNat_shiftRight, amount, low, Nat.and_two_pow_sub_one_eq_mod, Nat.mod_mod,
    Nat.shiftRight_eq_div_pow, Nat.shiftLeft_eq, Nat.mod_eq_of_lt fits, Nat.mul_comm]
  rfl

/-- Four bytes, most significant first, hold a 32-bit word. -/
theorem word_of_four (word : UInt32) :
    ((((word >>> 24) &&& 0xFF).toUInt8.toUInt32 <<< 24) |||
      (((word >>> 16) &&& 0xFF).toUInt8.toUInt32 <<< 16) |||
      (((word >>> 8) &&& 0xFF).toUInt8.toUInt32 <<< 8) |||
      ((word &&& 0xFF).toUInt8.toUInt32)) = word := by
  apply UInt32.toNat_inj.mp
  have b0 : (((word >>> 24) &&& 0xFF).toUInt8.toUInt32 <<< 24).toNat =
      2 ^ 24 * (word.toNat / 2 ^ 24 % 256) := byte_of_word32 word (by decide)
  have b1 : (((word >>> 16) &&& 0xFF).toUInt8.toUInt32 <<< 16).toNat =
      2 ^ 16 * (word.toNat / 2 ^ 16 % 256) := byte_of_word32 word (by decide)
  have b2 : (((word >>> 8) &&& 0xFF).toUInt8.toUInt32 <<< 8).toNat =
      2 ^ 8 * (word.toNat / 2 ^ 8 % 256) := byte_of_word32 word (by decide)
  have b3 : (word &&& 0xFF).toUInt8.toUInt32.toNat = word.toNat % 256 := by
    have low : (0xFF : UInt32).toNat = 2 ^ 8 - 1 := rfl
    rw [UInt8.toNat_toUInt32, UInt32.toNat_toUInt8, UInt32.toNat_and, low,
      Nat.and_two_pow_sub_one_eq_mod, Nat.mod_mod]
  have bound := word.toNat_lt
  -- each disjunction adds a byte below the bits already there
  rw [UInt32.toNat_or, UInt32.toNat_or, UInt32.toNat_or, b0, b1, b2, b3,
    ← Nat.two_pow_add_eq_or_of_lt (by omega)]
  have two : 2 ^ 24 * (word.toNat / 2 ^ 24 % 256) + 2 ^ 16 * (word.toNat / 2 ^ 16 % 256) =
      2 ^ 16 * (word.toNat / 2 ^ 16) := by omega
  rw [two, ← Nat.two_pow_add_eq_or_of_lt (by omega)]
  have three : 2 ^ 16 * (word.toNat / 2 ^ 16) + 2 ^ 8 * (word.toNat / 2 ^ 8 % 256) =
      2 ^ 8 * (word.toNat / 2 ^ 8) := by omega
  rw [three, ← Nat.two_pow_add_eq_or_of_lt (by omega)]
  omega

end CoWq.BigEndian
