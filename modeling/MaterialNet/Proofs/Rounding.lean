import Mathlib.Algebra.Ring.Nat
import MaterialNet.Number.Reading

namespace MaterialNet

/-!
# How large a rounded number can be

Rounding a quotient moves it by at most one place of its block, so the code of a rounded quotient is
bounded by the block that the quotient lies in.  A significand of 64 bits therefore stays far within
the doubles when it is scaled by a power of ten that is not too large.

* `Format.ofRatio_le`, `Format.units_lt` — the size of a code and of its value
* `Significand.ofDigits_le` — what the digits of a numeral are gathered to
* `isSome_scale?` — the scaling that does not overflow
* `Numeral.isSome_readDouble?` — numerals that stand for a double
-/

namespace Format

variable {F : Format} {num den b i j : Nat}

/-! ### Rounded quotients -/

/-- What lies below a natural number is rounded to it at most. -/
theorem roundHalfEven_le {m : Nat} (h : num < m * den) : roundHalfEven num den ≤ m := by
  have hq : num / den < m := Nat.div_lt_of_lt_mul (Nat.mul_comm m den ▸ h)
  have hodd : num / den % 2 < 2 := Nat.mod_lt _ (by decide)
  simp only [roundHalfEven]
  split
  · exact Nat.le_of_lt hq
  · split <;> omega

/-- A quotient lies in its block. -/
theorem lt_of_block (hden : 0 < den) :
    num < 2 ^ (F.fractionBits + 1 + F.block num den) * den := by
  rw [← Nat.div_lt_iff_lt_mul hden]
  refine Nat.lt_of_lt_of_le Nat.lt_log2_self (Nat.pow_le_pow_right (by decide) ?_)
  unfold block
  omega

/-- A block is the first one in which a quotient lies. -/
theorem block_le (hden : 0 < den) (h : num < 2 ^ (F.fractionBits + 1 + b) * den) :
    F.block num den ≤ b := by
  rw [← Nat.div_lt_iff_lt_mul hden] at h
  unfold block
  by_cases hzero : num / den = 0
  · simp [hzero]
  · have := (Nat.log2_lt hzero).2 h
    omega

/-- The code of a quotient that lies below the end of a block is no code beyond the next block. -/
theorem ofRatio_le (hden : 0 < den) (h : num * F.scale < 2 ^ (F.fractionBits + 1 + b) * den) :
    F.ofRatio num den ≤ (b + 2) * F.fieldSize := by
  have hblock := block_le hden h
  -- In its block a quotient has one bit more than a fraction field, and rounding may fill it up.
  have hround : roundHalfEven (num * F.scale) (den * Nat.pow 2 (F.block (num * F.scale) den))
      ≤ 2 * F.fieldSize := by
    refine roundHalfEven_le (Nat.lt_of_lt_of_eq (lt_of_block (F := F) hden) ?_)
    simp only [fieldSize, Nat.pow_eq, Nat.pow_add, Nat.pow_one]
    ac_rfl
  calc F.ofRatio num den
      ≤ F.block (num * F.scale) den * F.fieldSize
        + roundHalfEven (num * F.scale) (den * Nat.pow 2 (F.block (num * F.scale) den)) :=
        Nat.min_le_right _ _
    _ ≤ b * F.fieldSize + 2 * F.fieldSize :=
        Nat.add_le_add (Nat.mul_le_mul_right _ hblock) hround
    _ = (b + 2) * F.fieldSize := (Nat.add_mul ..).symm

/-! ### Values of codes -/

theorem fieldSize_pos : 0 < F.fieldSize := Nat.pow_pos (by decide)

/-- The value of a code is bounded by its exponent field. -/
theorem units_lt (code : Nat) : F.units code < 2 ^ (F.fractionBits + code / F.fieldSize) := by
  simp only [units]
  split
  · rename_i hfield
    rw [hfield]
    exact (Nat.div_eq_zero_iff.1 hfield).resolve_left (Nat.ne_of_gt fieldSize_pos)
  · rename_i hfield
    obtain ⟨k, hk⟩ := Nat.exists_eq_succ_of_ne_zero hfield
    have hmod := Nat.mod_lt code (F.fieldSize_pos)
    rw [hk]
    -- The significand has one bit more than the fraction.
    calc (F.fieldSize + code % F.fieldSize) * Nat.pow 2 (k + 1 - 1)
        < (F.fieldSize + F.fieldSize) * 2 ^ k :=
          Nat.mul_lt_mul_of_pos_right (Nat.add_lt_add_left hmod _) (Nat.pow_pos (by decide))
      _ = 2 ^ (F.fractionBits + (k + 1)) := by
          rw [← Nat.two_mul, fieldSize, Nat.pow_eq, Nat.pow_add, Nat.pow_succ]
          ac_rfl

/-- The value of a rounded natural number has at most one binary digit more than the number. -/
theorem units_ofNat_lt {n k : Nat} (h : n < 2 ^ k) (hk : F.fractionBits < F.least + k) :
    F.units (F.ofNat n) < 2 ^ (F.least + k + 1) := by
  obtain ⟨b, hb⟩ := Nat.exists_eq_add_of_lt hk
  have hscaled : n * F.scale < 2 ^ (F.fractionBits + 1 + b) * 1 := by
    rw [Nat.mul_one, scale, Nat.pow_eq, show F.fractionBits + 1 + b = k + F.least by omega,
      Nat.pow_add]
    exact Nat.mul_lt_mul_of_pos_right h (Nat.pow_pos (by decide))
  have hfield : F.ofNat n / F.fieldSize ≤ b + 2 :=
    Nat.div_le_of_le_mul (Nat.mul_comm _ F.fieldSize ▸ ofRatio_le Nat.one_pos hscaled)
  refine Nat.lt_of_lt_of_le (units_lt _) (Nat.pow_le_pow_right (by decide) ?_)
  omega

/-- The code of a product is bounded by the values of its factors. -/
theorem mul_le {a a' : Nat} (ha : F.units a < 2 ^ i) (ha' : F.units a' < 2 ^ j)
    (h : i + j ≤ F.least + F.fractionBits + 1 + b) : F.mul a a' ≤ (b + 2) * F.fieldSize := by
  have hscale : 0 < F.scale := Nat.pow_pos (by decide)
  refine ofRatio_le (Nat.mul_pos hscale hscale) ?_
  rw [← Nat.mul_assoc]
  refine Nat.mul_lt_mul_of_pos_right ?_ hscale
  calc F.units a * F.units a'
      < 2 ^ i * 2 ^ j := Nat.mul_lt_mul'' ha ha'
    _ = 2 ^ (i + j) := (Nat.pow_add ..).symm
    _ ≤ 2 ^ (F.fractionBits + 1 + b + F.least) := Nat.pow_le_pow_right (by decide) (by omega)
    _ = 2 ^ (F.fractionBits + 1 + b) * F.scale := Nat.pow_add ..

end Format

/-! ### Gathered digits -/

namespace Significand

variable {s : Significand}

/-- However many digits are gathered, the value keeps to its bound, and each of the others raises
    the power. -/
theorem wholeDigits_le (ds : List Digit) (h : s.value ≤ significandLimit) :
    (ds.foldl wholeDigit s).value ≤ significandLimit
      ∧ (ds.foldl wholeDigit s).power ≤ s.power + ds.length := by
  induction ds generalizing s with
  | nil => exact ⟨h, by simp⟩
  | cons d ds ih =>
    rw [List.foldl_cons, List.length_cons]
    have hstep : (s.wholeDigit d).value ≤ significandLimit
        ∧ (s.wholeDigit d).power ≤ s.power + 1 := by
      unfold wholeDigit
      split <;> simp_all
    obtain ⟨hvalue, hpower⟩ := ih hstep.1
    exact ⟨hvalue, by omega⟩

/-- Digits behind the point keep to it, too, and never raise the power. -/
theorem fractionDigits_le (ds : List Digit) (h : s.value ≤ significandLimit) :
    (ds.foldl fractionDigit s).value ≤ significandLimit
      ∧ (ds.foldl fractionDigit s).power ≤ s.power := by
  induction ds generalizing s with
  | nil => exact ⟨h, Int.le_refl _⟩
  | cons d ds ih =>
    rw [List.foldl_cons]
    -- A digit for which there is no room is dropped.
    have hstep : (s.fractionDigit d).value ≤ significandLimit
        ∧ (s.fractionDigit d).power ≤ s.power := by
      unfold fractionDigit
      split
      · exact ⟨h, Int.le_refl _⟩
      · split
        · exact ⟨‹_›, Int.sub_le_self _ (by decide)⟩
        · exact ⟨h, Int.le_refl _⟩
    obtain ⟨hvalue, hpower⟩ := ih hstep.1
    exact ⟨hvalue, by omega⟩

/-- The digits of a numeral are gathered to 64 bits, and to no more places than stand before the
    point. -/
theorem ofDigits_le (whole fraction : List Digit) :
    (ofDigits whole fraction).value ≤ significandLimit
      ∧ (ofDigits whole fraction).power ≤ whole.length := by
  have hwhole := wholeDigits_le (s := ⟨0, 0, false⟩) whole (Nat.zero_le _)
  have hfraction := fractionDigits_le fraction hwhole.1
  refine ⟨hfraction.1, Int.le_trans hfraction.2 ?_⟩
  simpa using hwhole.2

end Significand

/-! ### Scaling -/

/-- A significand is not too large for a power of ten up to two hundred. -/
theorem isSome_scale? {value : Nat} {power : Int} (hvalue : value ≤ significandLimit)
    (hpower : power ≤ 200) : (scale? value power).isSome := by
  have hpow : Nat.pow 10 power.toNat < 2 ^ 801 :=
    Nat.lt_of_le_of_lt (Nat.pow_le_pow_right (by decide) (by omega : power.toNat ≤ 200))
      (by decide +kernel)
  -- The bounds are generous: a double may have a thousand binary digits before the point.
  have hcode := Format.units_ofNat_lt (F := .binary64) (k := 64) (Nat.lt_succ_of_le hvalue)
    (by decide)
  have hscale := Format.units_ofNat_lt (F := .binary64) (k := 801) hpow (by decide)
  have hproduct : Format.binary64.mul (Format.binary64.ofNat value) (powerOfTen power.toNat)
      < Format.binary64.infinity :=
    Nat.lt_of_le_of_lt (Format.mul_le (b := 1888) hcode hscale (by decide)) (by decide)
  unfold scale?
  split
  · rfl
  · rw [if_pos (by omega), if_pos hproduct]
    rfl

/-- A numeral whose digits and power of ten are not too large stands for a double. -/
theorem Numeral.isSome_readDouble? {n : Numeral} (hwhole : n.whole.length ≤ 20)
    (hexponent : ∀ e ∈ n.exponent, digitsValue e.digits ≤ 180) : n.readDouble?.isSome := by
  have hs := Significand.ofDigits_le n.whole (n.fraction.getD [])
  unfold readDouble?
  rw [Option.isSome_map]
  cases he : n.exponent with
  | none => exact isSome_scale? hs.1 (by omega)
  | some e =>
    have hm : digitsValue e.digits ≤ 180 := hexponent e he
    have hmagnitude : e.magnitude? = some (digitsValue e.digits) :=
      if_pos (Nat.le_trans hm (by decide))
    simp only [hmagnitude]
    refine isSome_scale? hs.1 ?_
    unfold saturate exponentLimit
    split <;> omega

end MaterialNet
