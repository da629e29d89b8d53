import InteropGraph.Constant
import Mathlib.Data.Nat.Bitwise

/-!
# The integers of constants

A constant is read as an integer with masks, shifts and a reinterpretation of words. As arithmetic
this is the remainder of its bits by a power of two (`toNat_maskedBits`), a comparison with half of
that power (`and_signBit_ne_zero_iff`) and a difference with all of it (`toInt_signExtended`).
`value_exact` puts these together, for every bit pattern and every width.
-/

namespace InteropGraph

/-! ### Words and numbers -/

theorem toNat_one_shiftLeft {s : UInt64} (h : s.toNat < 64) :
    ((1 : UInt64) <<< s).toNat = 2 ^ s.toNat := by
  have hlt : 2 ^ s.toNat < 2 ^ 64 := Nat.pow_lt_pow_right (by decide) h
  rw [UInt64.toNat_shiftLeft, UInt64.toNat_one, Nat.one_shiftLeft, Nat.mod_eq_of_lt h,
    Nat.mod_eq_of_lt hlt]

/-- A word whose highest bit is set is a negative number, less by the number of words. -/
theorem toInt_toInt64_of_le {b : UInt64} (h : 2 ^ 63 ≤ b.toNat) :
    b.toInt64.toInt = b.toNat - 2 ^ 64 := by
  have hhigh : ¬2 * b.toBitVec.toNat < 2 ^ 64 := by
    rw [UInt64.toNat_toBitVec]
    omega
  show b.toBitVec.toInt = _
  rw [BitVec.toInt_eq_toNat_cond, if_neg hhigh, UInt64.toNat_toBitVec]
  rfl

theorem shiftRight_ne_zero_iff {b : UInt64} : b >>> 63 ≠ 0 ↔ 2 ^ 63 ≤ b.toNat := by
  have hzero : b >>> 63 = 0 ↔ b.toNat / 2 ^ 63 = 0 := by
    rw [← UInt64.toNat_inj, UInt64.toNat_shiftRight, Nat.shiftRight_eq_div_pow]
    rfl
  rw [Ne, hzero]
  omega

namespace IntegerValue

/-- An integer has a sign only if it is negative, and otherwise needs no more than 63 bits. -/
def Canonical : IntegerValue → Prop
  | signed v => v.toInt < 0
  | unsigned v => v.toNat < 2 ^ 63

/-- A canonical integer is written in one way. -/
theorem Canonical.eq_of_toInt_eq {i j : IntegerValue} (hi : i.Canonical) (hj : j.Canonical)
    (h : i.toInt = j.toInt) : i = j := by
  cases i with
  | signed v =>
    cases j with
    | signed u => exact congrArg signed (Int64.toInt_inj.mp h)
    | unsigned u =>
      have hv : v.toInt < 0 := hi
      have hu : v.toInt = u.toNat := h
      omega
  | unsigned v =>
    cases j with
    | signed u =>
      have hu : u.toInt < 0 := hj
      have hv : (v.toNat : Int) = u.toInt := h
      omega
    | unsigned u => exact congrArg unsigned (UInt64.toNat_inj.mp (Int.ofNat_inj.mp h))

end IntegerValue

namespace BitConstant

variable (c : BitConstant)

/-- How many of the bits count: as many as the width says, but at least 1 and at most 64. -/
def bitCount : Nat :=
  max 1 (min c.width.toNat 64)

/-- The number that the bits which count stand for without a sign. -/
def number : Nat :=
  c.bits.toNat % 2 ^ c.bitCount

theorem one_le_bitCount : 1 ≤ c.bitCount :=
  Nat.le_max_left _ _

theorem bitCount_le : c.bitCount ≤ 64 :=
  Nat.max_le.mpr ⟨by decide, Nat.min_le_right _ _⟩

theorem number_lt : c.number < 2 ^ c.bitCount :=
  Nat.mod_lt _ (Nat.two_pow_pos _)

/-! ### The words that the bits are combined with -/

/-- The width that is computed is the number of bits that count. -/
theorem toNat_effectiveWidth : c.effectiveWidth.toNat = c.bitCount := by
  unfold effectiveWidth bitCount
  simp only [UInt64.lt_iff_toNat_lt, UInt32.toNat_toUInt64]
  split
  next h =>
    rw [UInt64.toNat_one] at h ⊢
    omega
  next h =>
    split
    next h' =>
      have hlt : 64 < c.width.toNat := h'
      show 64 = _
      omega
    next h' =>
      have hle : ¬64 < c.width.toNat := h'
      rw [UInt64.toNat_one] at h
      rw [UInt32.toNat_toUInt64]
      omega

/-- All bits of the word count exactly if the width is 64. -/
theorem effectiveWidth_eq_iff : c.effectiveWidth = 64 ↔ c.bitCount = 64 := by
  rw [← UInt64.toNat_inj, toNat_effectiveWidth]
  rfl

theorem one_le_effectiveWidth : 1 ≤ c.effectiveWidth := by
  rw [UInt64.le_iff_toNat_le, toNat_effectiveWidth]
  exact c.one_le_bitCount

theorem toNat_effectiveWidth_sub_one : (c.effectiveWidth - 1).toNat = c.bitCount - 1 := by
  rw [UInt64.toNat_sub_of_le _ _ c.one_le_effectiveWidth, toNat_effectiveWidth]
  rfl

theorem toNat_effectiveWidth_sub_one_lt : (c.effectiveWidth - 1).toNat < 64 := by
  have hle := c.bitCount_le
  rw [toNat_effectiveWidth_sub_one]
  omega

/-- The highest bit that counts. -/
theorem toNat_signBit : c.signBit.toNat = 2 ^ (c.bitCount - 1) := by
  rw [signBit, toNat_one_shiftLeft c.toNat_effectiveWidth_sub_one_lt, toNat_effectiveWidth_sub_one]

theorem toNat_effectiveWidth_lt (h : c.effectiveWidth ≠ 64) : c.effectiveWidth.toNat < 64 := by
  have hle := c.bitCount_le
  rw [Ne, effectiveWidth_eq_iff] at h
  rw [toNat_effectiveWidth]
  omega

theorem one_le_shiftLeft_effectiveWidth (h : c.effectiveWidth ≠ 64) :
    1 ≤ (1 : UInt64) <<< c.effectiveWidth := by
  rw [UInt64.le_iff_toNat_le, toNat_one_shiftLeft (c.toNat_effectiveWidth_lt h)]
  exact Nat.one_le_two_pow

/-- The mask has a one for each bit that counts. -/
theorem toNat_mask : c.mask.toNat = 2 ^ c.bitCount - 1 := by
  unfold mask
  by_cases h : c.effectiveWidth = 64
  · rw [if_pos h, c.effectiveWidth_eq_iff.mp h]
    rfl
  · rw [if_neg h, UInt64.toNat_sub_of_le _ _ (c.one_le_shiftLeft_effectiveWidth h),
      toNat_one_shiftLeft (c.toNat_effectiveWidth_lt h), toNat_effectiveWidth]
    rfl

/-- No step in the reading of a constant leaves its range: one can be taken from the width and from
the word that is shifted by it, no word is shifted by 64 or more places, and the words that come out
are those that are meant. -/
structure StepsInRange : Prop where
  width : c.effectiveWidth.toNat = c.bitCount
  one_le_width : 1 ≤ c.effectiveWidth
  maskShift : c.effectiveWidth ≠ 64 → c.effectiveWidth < 64
  one_le_shifted : c.effectiveWidth ≠ 64 → 1 ≤ (1 : UInt64) <<< c.effectiveWidth
  mask : c.mask.toNat = 2 ^ c.bitCount - 1
  signShift : c.effectiveWidth - 1 < 64
  signBit : c.signBit.toNat = 2 ^ (c.bitCount - 1)

/-- No shift is by 64 or more, and no subtraction goes below zero. -/
theorem stepsInRange : c.StepsInRange where
  width := c.toNat_effectiveWidth
  one_le_width := c.one_le_effectiveWidth
  maskShift := c.toNat_effectiveWidth_lt
  one_le_shifted := c.one_le_shiftLeft_effectiveWidth
  mask := c.toNat_mask
  signShift := c.toNat_effectiveWidth_sub_one_lt
  signBit := c.toNat_signBit

/-! ### The bits that count -/

/-- Masking leaves the number. -/
theorem toNat_maskedBits : c.maskedBits.toNat = c.number := by
  rw [maskedBits, UInt64.toNat_and, toNat_mask, Nat.and_two_pow_sub_one_eq_mod, number]

/-- Half of the patterns have the highest bit. -/
theorem two_pow_bitCount : 2 ^ c.bitCount = 2 ^ (c.bitCount - 1) + 2 ^ (c.bitCount - 1) :=
  (Nat.two_pow_pred_add_two_pow_pred c.one_le_bitCount).symm

/-- The highest of the bits is set in the upper half of the numbers. -/
theorem and_signBit_ne_zero_iff :
    c.maskedBits &&& c.signBit ≠ 0 ↔ 2 ^ (c.bitCount - 1) ≤ c.number := by
  have hword : c.maskedBits &&& c.signBit = 0 ↔
      (c.number.testBit (c.bitCount - 1)).toNat * 2 ^ (c.bitCount - 1) = 0 := by
    rw [← UInt64.toNat_inj, UInt64.toNat_and, toNat_maskedBits, toNat_signBit, Nat.and_two_pow]
    rfl
  rw [Ne, hword, Nat.mul_eq_zero, or_iff_left (Nat.two_pow_pos _).ne', Bool.toNat_eq_zero,
    Bool.not_eq_false]
  constructor
  · exact Nat.ge_two_pow_of_testBit
  · intro h
    have hlt : c.number < 2 ^ (c.bitCount - 1 + 1) := by
      rw [Nat.sub_add_cancel c.one_le_bitCount]
      exact c.number_lt
    exact Nat.testBit_of_two_pow_le_and_two_pow_add_one_gt h hlt

/-- Ones in the places that do not count add all the patterns of these places. -/
theorem toNat_signExtended :
    (c.maskedBits ||| ~~~c.mask).toNat = 2 ^ 64 - 2 ^ c.bitCount + c.number := by
  have hpos : 0 < 2 ^ c.bitCount := Nat.two_pow_pos _
  have hpow : 2 ^ 64 = 2 ^ c.bitCount * 2 ^ (64 - c.bitCount) := by
    rw [← Nat.pow_add, Nat.add_sub_cancel' c.bitCount_le]
  have hhigh : 2 ^ 64 - 2 ^ c.bitCount = 2 ^ c.bitCount * (2 ^ (64 - c.bitCount) - 1) := by
    rw [Nat.mul_sub, ← hpow, Nat.mul_one]
  have hmask : UInt64.size - 1 - (2 ^ c.bitCount - 1) = 2 ^ 64 - 2 ^ c.bitCount := by
    show 2 ^ 64 - 1 - _ = _
    omega
  rw [UInt64.toNat_or, UInt64.toNat_not, toNat_maskedBits, toNat_mask, hmask, hhigh, Nat.lor_comm,
    Nat.two_pow_add_eq_or_of_lt c.number_lt]

/-- With ones in the places that do not count, a number of the upper half is less by the number of
patterns. -/
theorem toInt_signExtended (h : 2 ^ (c.bitCount - 1) ≤ c.number) :
    (c.maskedBits ||| ~~~c.mask).toInt64.toInt = c.number - 2 ^ c.bitCount := by
  have hsum := c.toNat_signExtended
  have hhalf := c.two_pow_bitCount
  have hle : 2 ^ c.bitCount ≤ 2 ^ 64 := Nat.pow_le_pow_right (by decide) c.bitCount_le
  have hhigh : 2 ^ 63 ≤ (c.maskedBits ||| ~~~c.mask).toNat := by omega
  have hcast : (2 : Int) ^ c.bitCount = (2 ^ c.bitCount : Nat) := by norm_cast
  rw [toInt_toInt64_of_le hhigh, hsum, hcast]
  omega

/-! ### Values -/

/-- The number of a signed constant that is not in the upper half needs less than 64 bits. -/
theorem number_lt_of_lt (h : c.number < 2 ^ (c.bitCount - 1)) : c.number < 2 ^ 63 :=
  h.trans_le (Nat.pow_le_pow_right (by decide) (Nat.sub_le_sub_right c.bitCount_le 1))

/-- A signed constant with its sign bit set is below zero. -/
theorem value_of_negative (hu : c.unsigned = false) (h : 2 ^ (c.bitCount - 1) ≤ c.number) :
    ∃ v, c.value = .signed v ∧ v.toInt = c.number - 2 ^ c.bitCount := by
  refine ⟨_, ?_, c.toInt_signExtended h⟩
  have hsign := c.and_signBit_ne_zero_iff.mpr h
  rw [value, if_pos (by simp [hu, hsign])]

/-- An unsigned constant that does not fit is read in two's complement of 64 bits. -/
theorem value_of_large (hu : c.unsigned = true) (h : 2 ^ 63 ≤ c.number) :
    ∃ v, c.value = .signed v ∧ v.toInt = c.number - 2 ^ 64 := by
  have hmasked := c.toNat_maskedBits
  have hhigh : c.maskedBits >>> 63 ≠ 0 := shiftRight_ne_zero_iff.mpr (hmasked ▸ h)
  refine ⟨c.maskedBits.toInt64, ?_, ?_⟩
  · rw [value, if_neg (by simp [hu]), if_pos (by simp [hhigh])]
  · rw [toInt_toInt64_of_le (hmasked ▸ h), hmasked]

/-- Every other constant is its number. -/
theorem value_of_small (hs : c.unsigned = false → c.number < 2 ^ (c.bitCount - 1))
    (hu : c.unsigned = true → c.number < 2 ^ 63) :
    ∃ v, c.value = .unsigned v ∧ v.toNat = c.number := by
  refine ⟨c.maskedBits, ?_, c.toNat_maskedBits⟩
  have hlow : c.number < 2 ^ 63 := by
    cases h : c.unsigned with
    | false => exact c.number_lt_of_lt (hs h)
    | true => exact hu h
  have hsign : c.unsigned = false → c.maskedBits &&& c.signBit = 0 := fun h =>
    not_not.mp (mt c.and_signBit_ne_zero_iff.mp (hs h).not_ge)
  have hshift : c.maskedBits >>> 63 = 0 :=
    not_not.mp (mt shiftRight_ne_zero_iff.mp (c.toNat_maskedBits ▸ hlow.not_ge))
  rw [value, if_neg (by simpa using hsign), if_neg (by simp [hshift])]

/-- The three cases in which a constant is read differently. -/
theorem value_cases :
    (c.unsigned = false ∧ 2 ^ (c.bitCount - 1) ≤ c.number) ∨
    (c.unsigned = true ∧ 2 ^ 63 ≤ c.number) ∨
    ((c.unsigned = false → c.number < 2 ^ (c.bitCount - 1)) ∧
      (c.unsigned = true → c.number < 2 ^ 63)) := by
  cases c.unsigned with
  | false =>
    rcases le_or_gt (2 ^ (c.bitCount - 1)) c.number with h | h
    · exact .inl ⟨rfl, h⟩
    · exact .inr (.inr ⟨fun _ => h, nofun⟩)
  | true =>
    rcases le_or_gt (2 ^ 63) c.number with h | h
    · exact .inr (.inl ⟨rfl, h⟩)
    · exact .inr (.inr ⟨nofun, fun _ => h⟩)

/-- A value is kept with a sign only if it is below zero. -/
theorem canonical_value : c.value.Canonical := by
  have hlt : (c.number : Int) < 2 ^ c.bitCount := by exact_mod_cast c.number_lt
  rcases c.value_cases with ⟨hu, h⟩ | ⟨hu, h⟩ | ⟨hs, hu⟩
  · obtain ⟨v, hv, hn⟩ := c.value_of_negative hu h
    rw [hv]
    show v.toInt < 0
    omega
  · have hword : c.number < 2 ^ 64 := c.toNat_maskedBits ▸ c.maskedBits.toNat_lt
    obtain ⟨v, hv, hn⟩ := c.value_of_large hu h
    rw [hv]
    show v.toInt < 0
    omega
  · obtain ⟨v, hv, hn⟩ := c.value_of_small hs hu
    rw [hv]
    show v.toNat < 2 ^ 63
    cases h : c.unsigned with
    | false => exact hn ▸ c.number_lt_of_lt (hs h)
    | true => exact hn ▸ hu h

/-- A signed constant is what its bits are in two's complement. -/
theorem toInt_value_of_signed (h : c.unsigned = false) :
    c.value.toInt = (c.bits.toBitVec.setWidth c.bitCount).toInt := by
  have hbits : (c.bits.toBitVec.setWidth c.bitCount).toNat = c.number := by
    rw [BitVec.toNat_setWidth, UInt64.toNat_toBitVec, number]
  have hhalf := c.two_pow_bitCount
  rw [BitVec.toInt_eq_toNat_cond, hbits]
  rcases le_or_gt (2 ^ (c.bitCount - 1)) c.number with hneg | hlow
  · obtain ⟨v, hv, hn⟩ := c.value_of_negative h hneg
    have hcast : ((2 ^ c.bitCount : Nat) : Int) = 2 ^ c.bitCount := by norm_cast
    rw [if_neg (by omega), hv, hcast]
    exact hn
  · obtain ⟨v, hv, hn⟩ := c.value_of_small (fun _ => hlow) (by rw [h]; exact nofun)
    rw [if_pos (by omega), hv]
    exact congrArg Int.ofNat hn

/-- **The integers of constants.** Let the width be taken as 1 if it is 0 and as 64 if it is greater
than that, and let `n` be the bits modulo `2 ^ width`. A signed constant with `n` in the upper half
is `n - 2 ^ width`, an unsigned one that takes all 64 bits of a word is `n - 2 ^ 64`, both with a
sign, and any other one is `n` without a sign. So a signed constant is read in two's complement;
integers with a sign are negative, and those without one are below `2 ^ 63`; constants of the same
value are read alike; and no step leaves its range. -/
theorem value_exact (c : BitConstant) :
    (c.unsigned = false → 2 ^ (c.bitCount - 1) ≤ c.number →
      ∃ v, c.value = .signed v ∧ v.toInt = c.number - 2 ^ c.bitCount) ∧
    (c.unsigned = true → 2 ^ 63 ≤ c.number →
      ∃ v, c.value = .signed v ∧ v.toInt = c.number - 2 ^ 64) ∧
    ((c.unsigned = false → c.number < 2 ^ (c.bitCount - 1)) →
      (c.unsigned = true → c.number < 2 ^ 63) →
      ∃ v, c.value = .unsigned v ∧ v.toNat = c.number) ∧
    (c.unsigned = false → c.value.toInt = (c.bits.toBitVec.setWidth c.bitCount).toInt) ∧
    c.value.Canonical ∧
    (∀ c' : BitConstant, c'.value.toInt = c.value.toInt → c'.value = c.value) ∧
    c.StepsInRange :=
  ⟨c.value_of_negative, c.value_of_large, c.value_of_small, c.toInt_value_of_signed,
    c.canonical_value, fun c' => c'.canonical_value.eq_of_toInt_eq c.canonical_value,
    c.stepsInRange⟩

/-- A single bit that is set is `-1` with a sign, also where the width is given as 0, and so is a
whole word of such bits without a sign; the two are read alike. A width of 3 bits leaves `3` of
`0b1011`. -/
theorem value_exact_ones :
    let bit : BitConstant := ⟨1, 0, false⟩
    let word : BitConstant := ⟨0xFFFFFFFFFFFFFFFF, 64, true⟩
    let small : BitConstant := ⟨0b1011, 3, false⟩
    (bit.unsigned = false ∧ 2 ^ (bit.bitCount - 1) ≤ bit.number ∧
      ∃ v, bit.value = .signed v ∧ v.toInt = -1) ∧
    (word.unsigned = true ∧ 2 ^ 63 ≤ word.number ∧
      ∃ v, word.value = .signed v ∧ v.toInt = -1) ∧
    (small.unsigned = false ∧ small.number < 2 ^ (small.bitCount - 1) ∧
      (∃ v, small.value = .unsigned v ∧ v.toNat = 3) ∧
      small.value.toInt = (small.bits.toBitVec.setWidth small.bitCount).toInt) ∧
    bit.value.toInt = word.value.toInt ∧ bit.value = word.value := by
  intro bit word small
  have hbit : 2 ^ (bit.bitCount - 1) ≤ bit.number := by decide
  have hword : 2 ^ 63 ≤ word.number := by decide
  have hsmall : small.number < 2 ^ (small.bitCount - 1) := by decide
  have hnumber : small.number = 3 := by decide
  have hsame : bit.value.toInt = word.value.toInt := by decide
  obtain ⟨hnegative, -⟩ := value_exact bit
  obtain ⟨-, hlarge, -, -, -, halike, -⟩ := value_exact word
  obtain ⟨-, -, hplain, htwos, -⟩ := value_exact small
  exact ⟨⟨rfl, hbit, hnegative rfl hbit⟩, ⟨rfl, hword, hlarge rfl hword⟩,
    ⟨rfl, hsmall, hnumber ▸ hplain (fun _ => hsmall) nofun, htwos rfl⟩, hsame, halike bit hsame⟩

end BitConstant

end InteropGraph
