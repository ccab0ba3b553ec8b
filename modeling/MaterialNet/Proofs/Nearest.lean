import Mathlib.Order.Monotone.Basic
import Mathlib.Tactic.Ring
import MaterialNet.Proofs.Rounding

namespace MaterialNet

/-!
# The nearest number of a format

The values of a format increase with the codes, and a quotient is rounded to a code exactly if it
lies between the middles to the codes next to it.  Everything that is known of a rounded quotient
follows from this: it is exact where the format has the quotient, and it lies on the same side of a
number of the format as the quotient does, provided the quotient keeps half a place away from it.

* `Format.exists_block`, `Format.units_block` — the value of a code from its block
* `Format.units_strictMono` — values increase with the codes
* `Format.exists_middle` — where the middles between codes are
* `Format.ofRatio_le_iff` — which quotients are rounded to at most a code
* `Format.units_ofRatio`, `Format.units_ofRatio_lt`, `Format.lt_units_ofRatio` — on which side of a
  number of the format a rounded quotient lies
-/

namespace Format

variable {F : Format} {num den b c s t v : Nat}

/-! ### Rounding to a natural number -/

/-- A quotient lies within half a place of the number it is rounded to, and a number that is half
    a place away is even. -/
theorem roundHalfEven_spec (hden : 0 < den) :
    (2 * num ≤ (2 * roundHalfEven num den + 1) * den
      ∧ (2 * num = (2 * roundHalfEven num den + 1) * den → roundHalfEven num den % 2 = 0))
    ∧ 2 * roundHalfEven num den * den ≤ 2 * num + den
      ∧ (2 * roundHalfEven num den * den = 2 * num + den → roundHalfEven num den % 2 = 0) := by
  have hdiv : num / den * den + num % den = num := Nat.div_add_mod' num den
  have hmod : num % den < den := Nat.mod_lt num hden
  have hodd : num / den % 2 < 2 := Nat.mod_lt _ (by decide)
  simp only [roundHalfEven]
  split
  · simp only [Nat.add_mul, Nat.mul_assoc, Nat.one_mul]
    omega
  · split
    · -- Halfway the quotient is rounded up exactly if it is odd.
      rcases Nat.lt_or_ge 0 (num / den % 2) with hup | hdown
      · rw [show num / den % 2 = 1 by omega]
        simp only [Nat.add_mul, Nat.mul_add, Nat.mul_assoc, Nat.one_mul]
        omega
      · rw [show num / den % 2 = 0 by omega]
        simp only [Nat.add_mul, Nat.mul_assoc, Nat.one_mul, Nat.add_zero]
        omega
    · simp only [Nat.add_mul, Nat.mul_add, Nat.mul_assoc, Nat.one_mul]
      omega

/-! ### Blocks -/

/-- A code is a significand in a block; only in the first block is a significand small. -/
theorem exists_block (F : Format) (c : Nat) :
    ∃ b s, c = b * F.fieldSize + s ∧ (F.fieldSize ≤ s ∨ b = 0) ∧ s < 2 * F.fieldSize := by
  have hpos : 0 < F.fieldSize := fieldSize_pos
  have hdiv : c / F.fieldSize * F.fieldSize + c % F.fieldSize = c := Nat.div_add_mod' c _
  have hmod := Nat.mod_lt c hpos
  cases hfield : c / F.fieldSize with
  | zero =>
    refine ⟨0, c, by omega, .inr rfl, ?_⟩
    rw [hfield] at hdiv
    omega
  | succ b =>
    refine ⟨b, F.fieldSize + c % F.fieldSize, ?_, .inl (Nat.le_add_right _ _), by omega⟩
    rw [hfield, Nat.succ_mul] at hdiv
    omega

/-- The value of a code is its significand in the unit of its block. The end of a block counts to
    the block as well as to the next one. -/
theorem units_block (hlow : F.fieldSize ≤ s ∨ b = 0) (hhigh : s ≤ 2 * F.fieldSize) :
    F.units (b * F.fieldSize + s) = s * 2 ^ b := by
  have hpos : 0 < F.fieldSize := fieldSize_pos
  have hunits {k m : Nat} (hm : m < F.fieldSize) :
      F.units ((k + 1) * F.fieldSize + m) = (F.fieldSize + m) * 2 ^ k := by
    have hdiv : ((k + 1) * F.fieldSize + m) / F.fieldSize = k + 1 := by
      rw [Nat.mul_comm, Nat.mul_add_div hpos, Nat.div_eq_of_lt hm, Nat.add_zero]
    have hmod : ((k + 1) * F.fieldSize + m) % F.fieldSize = m := by
      rw [Nat.mul_add_mod', Nat.mod_eq_of_lt hm]
    simp only [units, hdiv, hmod, if_neg (Nat.succ_ne_zero k), Nat.add_sub_cancel, Nat.pow_eq]
  -- Below the field size there is the first block only; at its double the next block starts.
  rcases Nat.lt_or_ge s F.fieldSize with hs | hs
  · obtain rfl := hlow.resolve_left (Nat.not_le.2 hs)
    simp [units, Nat.div_eq_of_lt hs]
  · rcases Nat.lt_or_ge s (2 * F.fieldSize) with hs' | hs'
    · obtain ⟨m, rfl⟩ := Nat.exists_eq_add_of_le hs
      rw [show b * F.fieldSize + (F.fieldSize + m) = (b + 1) * F.fieldSize + m by ring]
      exact hunits (by omega)
    · obtain rfl := Nat.le_antisymm hhigh hs'
      have hcode : b * F.fieldSize + 2 * F.fieldSize = (b + 1 + 1) * F.fieldSize + 0 := by ring
      rw [hcode, hunits hpos]
      ring

/-- The value of a code is its own one in the first two blocks. -/
theorem units_eq_self (h : c ≤ 2 * F.fieldSize) : F.units c = c := by
  simpa using @units_block F 0 c (.inr rfl) h

theorem scale_pos (F : Format) : 0 < F.scale := Nat.pow_pos Nat.two_pos

/-- Larger codes stand for more units. -/
theorem units_strictMono (F : Format) : StrictMono F.units := by
  refine strictMono_nat_of_lt_succ fun c => ?_
  obtain ⟨b, s, rfl, hlow, hhigh⟩ := F.exists_block c
  rw [units_block hlow (Nat.le_of_lt hhigh), Nat.add_assoc,
    units_block (hlow.imp_left Nat.le_succ_of_le) hhigh]
  exact Nat.mul_lt_mul_of_pos_right (Nat.lt_succ_self s) (Nat.pow_pos (by decide))

/-- Values are closer together below a code than above it, but not more than twice as close. -/
theorem units_gaps (c : Nat) :
    2 * F.units (c + 1) ≤ F.units (c + 1 + 1) + F.units c
      ∧ F.units (c + 1 + 1) + 2 * F.units c ≤ 3 * F.units (c + 1) := by
  obtain ⟨b, s, rfl, hlow, hhigh⟩ := F.exists_block c
  have hnext : F.units (b * F.fieldSize + s + 1) = (s + 1) * 2 ^ b :=
    units_block (hlow.imp_left Nat.le_succ_of_le) hhigh
  rw [hnext, units_block hlow (Nat.le_of_lt hhigh)]
  rcases Nat.lt_or_ge (s + 1) (2 * F.fieldSize) with hs | hs
  · have hafter : F.units (b * F.fieldSize + s + 1 + 1) = (s + 2) * 2 ^ b :=
      units_block (s := s + 2) (hlow.imp_left fun h => Nat.le_add_right_of_le h) hs
    rw [hafter]
    simp only [Nat.add_mul]
    omega
  · -- The code after the next one is the second of the next block.
    have hafter : F.units (b * F.fieldSize + s + 1 + 1) = (s + 3) * 2 ^ b := by
      have hend : s + 1 = 2 * F.fieldSize := by omega
      calc F.units (b * F.fieldSize + s + 1 + 1)
          = F.units ((b + 1) * F.fieldSize + (F.fieldSize + 1)) := by
            rw [Nat.succ_mul]
            congr 1
            omega
        _ = (F.fieldSize + 1) * 2 ^ (b + 1) := units_block (.inl (Nat.le_succ _)) (by omega)
        _ = (s + 3) * 2 ^ b := by
            rw [show s + 3 = 2 * (F.fieldSize + 1) by omega]
            ring
    rw [hafter]
    simp only [Nat.add_mul]
    omega

/-- The code after one of a block is not closer than the unit of the block. -/
theorem le_units_succ (hlow : F.fieldSize ≤ s ∨ b = 0) (hhigh : s ≤ 2 * F.fieldSize) :
    (s + 1) * 2 ^ b ≤ F.units (b * F.fieldSize + s + 1) := by
  rcases Nat.lt_or_ge s (2 * F.fieldSize) with hs | hs
  · exact Nat.le_of_eq (units_block (s := s + 1) (hlow.imp_left Nat.le_succ_of_le) hs).symm
  · have hend : s = 2 * F.fieldSize := Nat.le_antisymm hhigh hs
    calc (s + 1) * 2 ^ b
        ≤ (s + 2) * 2 ^ b := Nat.mul_le_mul_right _ (Nat.le_succ _)
      _ = (F.fieldSize + 1) * 2 ^ (b + 1) := by rw [hend]; ring
      _ = F.units ((b + 1) * F.fieldSize + (F.fieldSize + 1)) :=
          (units_block (.inl (Nat.le_succ _)) (by have := F.fieldSize_pos; omega)).symm
      _ = F.units (b * F.fieldSize + s + 1) := by
          rw [hend]
          congr 1
          ring

/-- The middle between a code and the next one is an odd number of places of the distance between
    them; it has one binary digit more than a significand. -/
theorem exists_middle (F : Format) (c : Nat) : ∃ b n, F.units c + F.units (c + 1) = n * 2 ^ b
    ∧ F.units (c + 1) = F.units c + 2 ^ b ∧ n < 4 * F.fieldSize
    ∧ (b = 0 ∨ (b + 1) * F.fieldSize ≤ c) := by
  obtain ⟨b, s, rfl, hlow, hhigh⟩ := F.exists_block c
  have hunits : F.units (b * F.fieldSize + s) = s * 2 ^ b := units_block hlow (Nat.le_of_lt hhigh)
  have hnext : F.units (b * F.fieldSize + s + 1) = (s + 1) * 2 ^ b :=
    units_block (hlow.imp_left Nat.le_succ_of_le) hhigh
  refine ⟨b, 2 * s + 1, ?_, ?_, by omega, ?_⟩
  · rw [hunits, hnext]
    ring
  · rw [hunits, hnext, Nat.succ_mul]
  · refine hlow.symm.imp_right fun hs => ?_
    rw [Nat.succ_mul]
    exact Nat.add_le_add_left hs _

/-! ### Rounding to a code -/

/-- The significand of a quotient in its block. It may be rounded up to the end of the block. -/
theorem significand_spec (hden : 0 < den) :
    let b := F.block num den
    let s := roundHalfEven num (den * 2 ^ b)
    s ≤ 2 * F.fieldSize ∧ (F.fieldSize ≤ s ∧ F.fieldSize * (den * 2 ^ b) ≤ num ∨ b = 0) := by
  intro b s
  have hpos : 0 < den * 2 ^ b := Nat.mul_pos hden (Nat.pow_pos (by decide))
  refine ⟨roundHalfEven_le (Nat.lt_of_lt_of_eq (lt_of_block (F := F) hden) ?_), ?_⟩
  · simp only [fieldSize, Nat.pow_eq, b]
    ring
  · refine or_iff_not_imp_right.2 fun hblock => ?_
    have hzero : num / den ≠ 0 := fun h => hblock (by simp [b, block, h])
    have hlog : (num / den).log2 = F.fractionBits + b := by
      simp only [b, block] at hblock ⊢
      omega
    have hlarge : F.fieldSize * (den * 2 ^ b) ≤ num := by
      rw [← Nat.mul_assoc, Nat.mul_right_comm, ← Nat.le_div_iff_mul_le hden, fieldSize, Nat.pow_eq,
        ← Nat.pow_add, ← hlog]
      exact Nat.log2_self_le hzero
    refine ⟨?_, hlarge⟩
    -- A smaller significand would stand for a quotient below the block.
    by_contra hsmall
    have hround : 2 * num ≤ (2 * s + 1) * (den * 2 ^ b) := (roundHalfEven_spec hpos).1.1
    have hbelow : (2 * s + 1) * (den * 2 ^ b) < 2 * F.fieldSize * (den * 2 ^ b) :=
      Nat.mul_lt_mul_of_pos_right (by omega) hpos
    rw [Nat.mul_assoc] at hbelow
    omega

/-- The codes of a block are even where their significands are. -/
theorem code_mod_two (hbits : 0 < F.fractionBits) (b s : Nat) :
    (b * F.fieldSize + s) % 2 = s % 2 := by
  obtain ⟨k, hk⟩ := Nat.exists_eq_add_of_lt hbits
  rw [Nat.zero_add] at hk
  have hfield : b * F.fieldSize = 2 * (b * 2 ^ k) := by
    rw [fieldSize, hk, Nat.pow_eq]
    ring
  rw [hfield, Nat.mul_add_mod]

/-- Below a significand that does not start its block comes the one before it. -/
theorem units_pred_block (hinner : F.fieldSize < s ∨ b = 0) (hs : 0 < s)
    (hhigh : s ≤ 2 * F.fieldSize) : F.units (b * F.fieldSize + s - 1) = (s - 1) * 2 ^ b := by
  rw [Nat.add_sub_assoc hs]
  exact units_block (hinner.imp_left Nat.le_sub_one_of_lt) (Nat.le_trans (Nat.sub_le ..) hhigh)

section Rounded

variable (hbits : 0 < F.fractionBits) (hden : 0 < den)
include hbits hden

/-- A quotient lies between the middles to the codes next to the one it is rounded to, and if it
    is such a middle, the code is even. -/
theorem middles_of_block :
    let r := F.block num den * F.fieldSize + roundHalfEven num (den * 2 ^ F.block num den)
    (2 * num ≤ (F.units r + F.units (r + 1)) * den
      ∧ (2 * num = (F.units r + F.units (r + 1)) * den → r % 2 = 0))
    ∧ (0 < r → (F.units (r - 1) + F.units r) * den ≤ 2 * num
      ∧ (2 * num = (F.units (r - 1) + F.units r) * den → r % 2 = 0)) := by
  obtain ⟨hhigh, hlow⟩ := @significand_spec F num den hden
  generalize F.block num den = b at hhigh hlow ⊢
  obtain ⟨⟨hbelow, hbeloweven⟩, habove, haboveeven⟩ :=
    @roundHalfEven_spec num _ (Nat.mul_pos hden (Nat.pow_pos (by decide) : 0 < 2 ^ b))
  generalize roundHalfEven num (den * 2 ^ b) = s at *
  intro r
  have heven (hs : s % 2 = 0) : r % 2 = 0 := (code_mod_two hbits b s).trans hs
  have hunits : F.units r = s * 2 ^ b := units_block (hlow.imp_left And.left) hhigh
  have hnext : (s + 1) * 2 ^ b ≤ F.units (r + 1) := le_units_succ (hlow.imp_left And.left) hhigh
  refine ⟨?_, fun hr => ?_⟩
  · have hmiddle : (2 * s + 1) * (den * 2 ^ b) ≤ (F.units r + F.units (r + 1)) * den := by
      calc (2 * s + 1) * (den * 2 ^ b)
          = (s * 2 ^ b + (s + 1) * 2 ^ b) * den := by ring
        _ ≤ (F.units r + F.units (r + 1)) * den :=
            Nat.mul_le_mul_right _ (hunits ▸ Nat.add_le_add_left hnext _)
    exact ⟨Nat.le_trans hbelow hmiddle, fun h => heven (hbeloweven (by omega))⟩
  · by_cases hinner : F.fieldSize < s ∨ b = 0
    · have hs : 0 < s := by
        rcases hinner with hs | rfl
        · exact Nat.zero_lt_of_lt hs
        · simpa [r] using hr
      have hprev : F.units (r - 1) = (s - 1) * 2 ^ b := units_pred_block hinner hs hhigh
      have hmiddle : (F.units (r - 1) + F.units r) * den + den * 2 ^ b
          = 2 * s * (den * 2 ^ b) := by
        calc (F.units (r - 1) + F.units r) * den + den * 2 ^ b
            = ((s - 1 + 1) + s) * (den * 2 ^ b) := by rw [hprev, hunits]; ring
          _ = 2 * s * (den * 2 ^ b) := by rw [Nat.sub_add_cancel hs, Nat.two_mul]
      exact ⟨by omega, fun h => heven (haboveeven (by omega))⟩
    · -- At the start of a block the codes below are closer, and the quotient is not below.
      obtain ⟨hfield, hlarge⟩ := hlow.resolve_right fun hb => hinner (.inr hb)
      obtain rfl : s = F.fieldSize := by omega
      have hprev : F.units (r - 1) < F.units r := F.units_strictMono (Nat.sub_one_lt_of_lt hr)
      have hstrict : (F.units (r - 1) + F.units r) * den < 2 * num := by
        calc (F.units (r - 1) + F.units r) * den
            < (F.units r + F.units r) * den :=
              Nat.mul_lt_mul_of_pos_right (Nat.add_lt_add_right hprev _) hden
          _ = 2 * (F.fieldSize * (den * 2 ^ b)) := by rw [hunits]; ring
          _ ≤ 2 * num := Nat.mul_le_mul_left 2 hlarge
      exact ⟨Nat.le_of_lt hstrict, fun h => absurd h (Nat.ne_of_gt hstrict)⟩

/-- A quotient is rounded to at most a code if it does not lie beyond the middle between this code
    and the next one; the middle itself counts to the even one of the two. -/
theorem ofRatio_le_iff (hc : c < F.infinity) : F.ofRatio num den ≤ c
    ↔ 2 * (num * F.scale) < (F.units c + F.units (c + 1)) * den
      ∨ 2 * (num * F.scale) = (F.units c + F.units (c + 1)) * den ∧ c % 2 = 0 := by
  have hmiddles := @middles_of_block F (num * F.scale) den hbits hden
  rw [show F.ofRatio num den ≤ c
    ↔ F.block (num * F.scale) den * F.fieldSize
      + roundHalfEven (num * F.scale) (den * 2 ^ F.block (num * F.scale) den) ≤ c from
    ⟨fun h => (min_le_iff.1 h).resolve_left (Nat.not_le.2 hc), fun h => min_le_iff.2 (.inr h)⟩]
  generalize F.block (num * F.scale) den * F.fieldSize
    + roundHalfEven (num * F.scale) (den * 2 ^ F.block (num * F.scale) den) = r at hmiddles ⊢
  obtain ⟨⟨hbelow, hbeloweven⟩, habove⟩ := hmiddles
  -- The middles increase with the codes.
  have hmiddle {i j : Nat} (hij : i < j) :
      (F.units i + F.units (i + 1)) * den < (F.units j + F.units (j + 1)) * den :=
    Nat.mul_lt_mul_of_pos_right (Nat.add_lt_add (F.units_strictMono hij)
      (F.units_strictMono (Nat.succ_lt_succ hij))) hden
  constructor
  · intro hrc
    rcases Nat.lt_or_eq_of_le hrc with hlt | rfl
    · exact .inl (Nat.lt_of_le_of_lt hbelow (hmiddle hlt))
    · exact (Nat.lt_or_eq_of_le hbelow).imp_right fun h => ⟨h, hbeloweven h⟩
  · intro h
    by_contra hcr
    obtain ⟨k, rfl⟩ := Nat.exists_eq_add_of_lt (Nat.not_le.1 hcr)
    obtain ⟨hle, heven⟩ := habove (Nat.succ_pos _)
    rw [Nat.add_sub_cancel] at hle heven
    rcases Nat.eq_zero_or_pos k with rfl | hk
    · rw [Nat.add_zero] at hle heven
      omega
    · have := hmiddle (Nat.lt_add_of_pos_right hk : c < c + k)
      omega

end Rounded

/-! ### Points of a grid -/

/-- A number of few digits is a value of the format, and the values next to it are not farther away
    than its last digit. -/
theorem exists_units (hv : v < 2 * F.fieldSize) (t : Nat) : ∃ c, F.units c = v * 2 ^ t
    ∧ F.units (c + 1) ≤ (v + 1) * 2 ^ t ∧ v * 2 ^ t ≤ F.units (c - 1) + 2 ^ t := by
  induction t generalizing v with
  | zero =>
    refine ⟨v, ?_, ?_, ?_⟩
    · rw [units_eq_self (Nat.le_of_lt hv), Nat.pow_zero, Nat.mul_one]
    · rw [units_eq_self hv, Nat.pow_zero, Nat.mul_one]
    · rw [units_eq_self (Nat.le_trans (Nat.sub_le _ _) (Nat.le_of_lt hv)), Nat.pow_zero]
      omega
  | succ t ih =>
    have hpow : 2 ^ (t + 1) = 2 * 2 ^ t := Nat.pow_succ'
    rcases Nat.lt_or_ge v F.fieldSize with hsmall | hlarge
    · -- There is room for one more digit.
      obtain ⟨c, hc, hnext, hprev⟩ := ih (v := 2 * v) (by omega)
      refine ⟨c, ?_, ?_, ?_⟩
      · rw [hc, hpow]
        ring
      · simp only [hpow, Nat.add_mul, Nat.one_mul, Nat.mul_left_comm v 2, Nat.mul_assoc] at hnext ⊢
        omega
      · simp only [hpow, Nat.mul_left_comm v 2, Nat.mul_assoc] at hprev ⊢
        omega
    · refine ⟨(t + 1) * F.fieldSize + v, units_block (.inl hlarge) (Nat.le_of_lt hv), ?_, ?_⟩
      · exact Nat.le_of_eq (units_block (s := v + 1) (.inl (Nat.le_succ_of_le hlarge)) hv)
      · rcases Nat.lt_or_eq_of_le hlarge with hinner | rfl
        · rw [units_pred_block (.inl hinner) (Nat.zero_lt_of_lt hinner) (Nat.le_of_lt hv),
            ← Nat.succ_mul]
          exact Nat.mul_le_mul_right _ (by omega)
        · -- The number starts a block, and the values below it are twice as close.
          have hpos : 0 < F.fieldSize := fieldSize_pos
          have hcode : (t + 1) * F.fieldSize + F.fieldSize - 1
              = t * F.fieldSize + (2 * F.fieldSize - 1) := by
            rw [Nat.succ_mul]
            omega
          rw [hcode, units_block (.inl (by omega)) (by omega), hpow]
          calc F.fieldSize * (2 * 2 ^ t)
              = (2 * F.fieldSize - 1 + 1) * 2 ^ t := by
                rw [Nat.sub_add_cancel (by omega)]
                ring
            _ ≤ (2 * F.fieldSize - 1) * 2 ^ t + 2 * 2 ^ t := by
                rw [Nat.succ_mul]
                omega

section Grid

variable (hbits : 0 < F.fractionBits) (hden : 0 < den) (hv : v < 2 * F.fieldSize)
  (hfinite : v * 2 ^ t < F.units F.infinity)
include hbits hden hv hfinite

/-- A number of few digits is rounded to itself. -/
theorem units_ofRatio (h : num * F.scale = v * 2 ^ t * den) :
    F.units (F.ofRatio num den) = v * 2 ^ t := by
  obtain ⟨c, hc, -⟩ := exists_units hv t
  have hmono := F.units_strictMono
  have hmiddle {i j : Nat} (hij : i < j) : (F.units i + F.units i) * den
      < (F.units i + F.units j) * den ∧ (F.units i + F.units j) * den
        < (F.units j + F.units j) * den :=
    ⟨Nat.mul_lt_mul_of_pos_right (Nat.add_lt_add_left (hmono hij) _) hden,
      Nat.mul_lt_mul_of_pos_right (Nat.add_lt_add_right (hmono hij) _) hden⟩
  rw [← hc] at h hfinite ⊢
  have hexact : 2 * (num * F.scale) = (F.units c + F.units c) * den := by rw [h]; ring
  have hcode : c < F.infinity := hmono.lt_iff_lt.1 hfinite
  -- The ratio is above the middle to the code below and below the middle to the code above.
  refine congrArg F.units (Nat.le_antisymm ?_ (Nat.le_of_not_lt fun hlt => ?_))
  · refine (ofRatio_le_iff hbits hden hcode).2 (.inl ?_)
    rw [hexact]
    exact (hmiddle (Nat.lt_add_one c)).1
  · obtain ⟨k, rfl⟩ := Nat.exists_eq_add_of_lt hlt
    have hle := (@ofRatio_le_iff F num den _ hbits hden (Nat.lt_of_succ_lt hcode)).1
      (Nat.le_add_right _ k)
    have hbelow := (hmiddle (Nat.lt_add_one (F.ofRatio num den + k))).2
    rw [hexact] at hle
    omega

/-- A quotient that is more than half a place below a number of few digits is rounded to a code
    below it. -/
theorem units_ofRatio_lt (h : 2 * (num * F.scale) + 2 ^ t * den < 2 * (v * 2 ^ t) * den) :
    F.units (F.ofRatio num den) < v * 2 ^ t := by
  obtain ⟨c, hc, -, hprev⟩ := exists_units hv t
  rw [← hc] at h hfinite hprev ⊢
  have hcode : c < F.infinity := F.units_strictMono.lt_iff_lt.1 hfinite
  have hpos : 0 < c := by
    refine Nat.pos_of_ne_zero fun hzero => ?_
    have hnone : F.units c = 0 := by simp [hzero, units]
    simp [hnone] at h
  -- The ratio stays below the middle between the code and the one before it.
  have hmiddle : 2 * F.units c * den ≤ (F.units (c - 1) + F.units c) * den + 2 ^ t * den := by
    calc 2 * F.units c * den
        ≤ (F.units (c - 1) + F.units c + 2 ^ t) * den := Nat.mul_le_mul_right _ (by omega)
      _ = (F.units (c - 1) + F.units c) * den + 2 ^ t * den := Nat.add_mul ..
  refine F.units_strictMono (Nat.lt_of_le_pred hpos ?_)
  refine (ofRatio_le_iff hbits hden (Nat.lt_of_le_of_lt (Nat.pred_le c) hcode)).2 (.inl ?_)
  rw [Nat.pred_eq_sub_one, Nat.sub_add_cancel hpos]
  omega

/-- A quotient that is more than half a place above a number of few digits is rounded to a code
    above it. -/
theorem lt_units_ofRatio (h : 2 * (v * 2 ^ t) * den + 2 ^ t * den < 2 * (num * F.scale)) :
    v * 2 ^ t < F.units (F.ofRatio num den) := by
  obtain ⟨c, hc, hnext, -⟩ := exists_units hv t
  rw [Nat.succ_mul, ← hc] at hnext
  rw [← hc] at h hfinite ⊢
  have hcode : c < F.infinity := F.units_strictMono.lt_iff_lt.1 hfinite
  have hmiddle : (F.units c + F.units (c + 1)) * den ≤ 2 * F.units c * den + 2 ^ t * den := by
    calc (F.units c + F.units (c + 1)) * den
        ≤ (2 * F.units c + 2 ^ t) * den := Nat.mul_le_mul_right _ (by omega)
      _ = 2 * F.units c * den + 2 ^ t * den := Nat.add_mul ..
  refine F.units_strictMono (Nat.lt_of_not_le fun hle => ?_)
  have := (ofRatio_le_iff hbits hden hcode).1 hle
  omega

end Grid

end Format

end MaterialNet
