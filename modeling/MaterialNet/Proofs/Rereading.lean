import Mathlib.Tactic.Ring
import MaterialNet.Proofs.Decoding
import MaterialNet.Proofs.Places
import MaterialNet.Proofs.Shortest

namespace MaterialNet

/-!
# Floats that come back from their numbers

The number of a float is read as a double, which may differ a little from the shortest decimal that
is written.  But the double never lies on another side of a middle between two floats than the
decimal does, so it is rounded to the float that was written.

* `Numeral.readDouble?_eq` — the decimal of a numeral is scaled
* `SameSide`, `SameSide.of_mul`, `SameSide.of_apart` — a decimal and a double around a middle
* `Format.convert_eq` — a double that keeps to the side of the decimal
* `Format.scale?_place`, `Format.scale?_whole` — the doubles of the shortest decimals
* `Binary32.reread_eq` — every finite float is read back as it is
-/

/-! ### Gathering the digits -/

namespace Significand

/-- Digits are gathered to their value while there is room for them. -/
theorem wholeDigits_eq (ds : List Digit) (h : digitsValue ds ≤ significandLimit) :
    ds.foldl wholeDigit ⟨0, 0, false⟩ = ⟨digitsValue ds, 0, false⟩ := by
  induction ds using List.reverseRecOn with
  | nil => rfl
  | append_singleton ds d ih =>
    rw [digitsValue_append_singleton] at h ⊢
    rw [List.foldl_append, ih (by omega), List.foldl_cons, List.foldl_nil]
    exact if_pos ⟨rfl, h⟩

/-- So are the digits behind a point, each of which lowers the power by one. -/
theorem fractionDigits_eq (ds fs : List Digit) (h : digitsValue (ds ++ fs) ≤ significandLimit) :
    fs.foldl fractionDigit ⟨digitsValue ds, 0, false⟩
      = ⟨digitsValue (ds ++ fs), -fs.length, false⟩ := by
  induction fs using List.reverseRecOn with
  | nil => simp
  | append_singleton fs d ih =>
    rw [← List.append_assoc, digitsValue_append_singleton] at h ⊢
    rw [List.foldl_append, ih (by omega), List.foldl_cons, List.foldl_nil, fractionDigit,
      if_neg Bool.false_ne_true, if_pos h, List.length_append, List.length_singleton]
    congr 1
    dsimp only
    omega

/-- Digits that fit are all gathered. -/
theorem ofDigits_eq (ds fs : List Digit) (h : digitsValue (ds ++ fs) ≤ significandLimit) :
    ofDigits ds fs = ⟨digitsValue (ds ++ fs), -fs.length, false⟩ := by
  have hle : digitsValue ds ≤ digitsValue (ds ++ fs) := by
    rw [digitsValue_append]
    exact Nat.le_add_right_of_le (Nat.le_mul_of_pos_right _ (Nat.pow_pos (by decide)))
  rw [ofDigits, wholeDigits_eq ds (Nat.le_trans hle h), fractionDigits_eq ds fs h]

end Significand

theorem saturate_eq {power : Int} (hlow : -0x80000000 ≤ power) (hhigh : power ≤ exponentLimit) :
    saturate power = power := by
  rw [saturate, min_eq_left hhigh, max_eq_right hlow]

/-- A numeral stands for its significand, scaled by its power of ten. -/
theorem Numeral.readDouble?_eq {n : Numeral} (hfits : n.significand ≤ significandLimit)
    (hexponent : ∀ e ∈ n.exponent, digitsValue e.digits ≤ exponentLimit)
    (hlow : -0x80000000 ≤ n.power) (hhigh : n.power ≤ exponentLimit) :
    n.readDouble? = (scale? n.significand n.power).map (.double n.negative) := by
  rw [readDouble?, Significand.ofDigits_eq _ _ hfits]
  cases hn : n.exponent with
  | none =>
    have hpower : n.power = -(n.fraction.getD []).length := by
      rw [power, hn]
      exact Int.zero_sub _
    rw [hpower]
    rfl
  | some e =>
    have hpower : n.power = e.value - (n.fraction.getD []).length := by rw [power, hn]; rfl
    have hmagnitude : e.magnitude? = some (digitsValue e.digits) := if_pos (hexponent e hn)
    -- The digits behind the point come off the power that is written.
    have hsum : (if e.sign = .minus then -((n.fraction.getD []).length : Int) - digitsValue e.digits
        else -((n.fraction.getD []).length : Int) + digitsValue e.digits) = n.power := by
      rw [hpower, Exponent.value]
      split <;> omega
    simp only [hmagnitude, hsum, saturate_eq hlow hhigh]
    rfl

/-! ### Sides of a middle -/

/-- A number lies on the side of a point on which another number lies of another point. -/
structure SameSide (x n y m : Nat) : Prop where
  below : x < n → y < m
  exact : x = n → y = m
  above : n < x → m < y

namespace SameSide

variable {x n y m c e : Nat}

/-- A change of the unit keeps everything on its side. -/
theorem of_mul (hc : 0 < c) (he : 0 < e) (h : x * c = y * e) (h' : n * c = m * e) :
    SameSide x n y m where
  below hlt := Nat.lt_of_mul_lt_mul_right (a := e) (h ▸ h' ▸ Nat.mul_lt_mul_of_pos_right hlt hc)
  exact heq := Nat.eq_of_mul_eq_mul_right he (h ▸ h' ▸ congrArg (· * c) heq)
  above hlt := Nat.lt_of_mul_lt_mul_right (a := e) (h ▸ h' ▸ Nat.mul_lt_mul_of_pos_right hlt hc)

theorem trans {z l : Nat} (h : SameSide x n y m) (h' : SameSide y m z l) : SameSide x n z l :=
  ⟨h'.below ∘ h.below, h'.exact ∘ h.exact, h'.above ∘ h.above⟩

/-- A quotient that is rounded keeps its side of a point with few digits, if it is farther away from
    the point than half a place. -/
theorem of_apart {F : Format} {num den v t z h : Nat} (hbits : 0 < F.fractionBits) (hden : 0 < den)
    (hv : v < 2 * F.fieldSize) (hfinite : v * 2 ^ t < F.units F.infinity) (hc : 0 < c) (he : 0 < e)
    (hnum : num * F.scale * e = 2 ^ 28 * z * c) (hpoint : v * 2 ^ t * den * e = 2 ^ 28 * n * c)
    (hplace : 2 ^ t * den * e = h * c) (hapart : Apart x z n h) :
    SameSide x n (F.units (F.ofRatio num den)) (v * 2 ^ t) := by
  have hnum' : 2 * (num * F.scale) * e = 2 ^ 29 * z * c := by
    rw [Nat.mul_assoc, hnum]
    ring
  have hpoint' : 2 * (v * 2 ^ t) * den * e = 2 ^ 29 * n * c := by
    rw [Nat.mul_assoc 2, Nat.mul_assoc 2, hpoint]
    ring
  -- Below the middle, on it and above it, the quotient is compared over one denominator.
  refine ⟨fun hlt => ?_, fun heq => ?_, fun hlt => ?_⟩
  · refine Format.units_ofRatio_lt hbits hden hv hfinite ?_
    refine Nat.lt_of_mul_lt_mul_right (a := e) ?_
    rw [Nat.add_mul, hnum', hplace, hpoint', ← Nat.add_mul]
    exact Nat.mul_lt_mul_of_pos_right (hapart.below hlt) hc
  · refine Format.units_ofRatio hbits hden hv hfinite (Nat.eq_of_mul_eq_mul_right he ?_)
    rw [hnum, hpoint, hapart.exact heq]
  · refine Format.lt_units_ofRatio hbits hden hv hfinite ?_
    refine Nat.lt_of_mul_lt_mul_right (a := e) ?_
    rw [Nat.add_mul, hnum', hplace, hpoint', ← Nat.add_mul]
    exact Nat.mul_lt_mul_of_pos_right (hapart.above hlt) hc

end SameSide

namespace Format

/-! ### From the decimal to the double -/

theorem two_pow_mul {i j k : Nat} (h : i + j = k) : 2 ^ i * 2 ^ j = 2 ^ k := by
  rw [← h, Nat.pow_add]

theorem mul_two_pow_mul {n b i j k : Nat} (h : i + j = k) :
    n * 2 ^ i * 2 ^ (b + j) = n * 2 ^ b * 2 ^ k := by
  rw [← h, Nat.pow_add, Nat.pow_add, Nat.mul_mul_mul_comm]

/-- A decimal that is scaled in double precision keeps its side of a middle between two floats, if
    its place is not too fine where it comes close to the middle. -/
theorem sameSide_of_coarse {k d n b num den : Nat} (hk : k < 94) (hd : 0 < d) (hn : n < 2 ^ 25)
    (hb : b ≤ 253) (hden : 0 < den)
    (hquotient : num * binary64.scale * movedDen k = d * movedNum k * 2 ^ 924 * den)
    (hcoarse : 6 * (n * (2 ^ b * 10 ^ 54)) < 6 * (d * placeStep k) + 2 ^ b * 10 ^ 54
      → 6 * (d * placeStep k) < 6 * (n * (2 ^ b * 10 ^ 54)) + 2 ^ b * 10 ^ 54
      → 4 * (2 ^ b * 10 ^ 54) ≤ 3 * placeStep k) :
    SameSide (d * placeStep k) (n * 2 ^ b * 10 ^ 54) (binary64.units (binary64.ofRatio num den))
      (n * 2 ^ b * 2 ^ 924) := by
  have hmoved := (movedNum_close k hk).1
  have hapart := apart_of_coarse hk hd hn hcoarse
  have hten : (0 : Nat) < 10 ^ 54 := by decide
  have hsplit : 2 ^ 28 * 2 ^ 896 = 2 ^ 924 := two_pow_mul rfl
  -- The middle has so few digits that it is a double itself.
  have hmiddle : n * 2 ^ 28 * 2 ^ (b + 896) = n * 2 ^ b * 2 ^ 924 := mul_two_pow_mul rfl
  have hv : n * 2 ^ 28 < 2 * binary64.fieldSize := by
    have hsize : binary64.fieldSize = 2 ^ 52 := rfl
    omega
  have hfinite : n * 2 ^ 28 * 2 ^ (b + 896) < binary64.units binary64.infinity := by
    calc n * 2 ^ 28 * 2 ^ (b + 896)
        ≤ 2 ^ 53 * 2 ^ 1149 :=
          Nat.mul_le_mul (by omega) (Nat.pow_le_pow_right (by decide) (by omega))
      _ < binary64.units binary64.infinity := by decide +kernel
  rw [← hsplit] at hquotient
  rw [← hmiddle]
  have hhalf : 0 < 2 ^ 896 := by positivity
  obtain ⟨w, hw, hpow⟩ : ∃ w, 2 ^ 896 = w ∧ 2 ^ (b + 896) = 2 ^ b * w := ⟨_, rfl, Nat.pow_add ..⟩
  rw [hw] at hhalf hquotient
  generalize hten' : 10 ^ 54 = ten at hten hapart
  -- In a common unit the quotient is the moved decimal.
  refine SameSide.trans (SameSide.of_mul (c := movedDen k) (e := 1) hmoved Nat.one_pos ?_ ?_)
    (SameSide.of_apart (c := w * den) (e := movedDen k * ten) (by decide) hden hv hfinite
      (Nat.mul_pos hhalf hden) (Nat.mul_pos hmoved hten) ?_ ?_ ?_ hapart)
  · ring
  · ring
  · rw [← Nat.mul_assoc _ (movedDen k), hquotient]
    ring
  · rw [hpow]
    ring
  · rw [hpow]
    ring

/-! ### From the double to the float -/

/-- The middle above a finite float is no larger than the doubles go. -/
theorem middle_lt_infinity {c : Nat} (hfinite : c < binary32.infinity) :
    (binary32.units c + binary32.units (c + 1)) * 2 ^ 924 < binary64.units binary64.infinity := by
  have hmono := binary32.units_strictMono
  have hle : binary32.units (c + 1) ≤ 2 ^ 277 :=
    (hmono.monotone hfinite).trans_eq (by decide +kernel)
  have hlt : binary32.units c < binary32.units (c + 1) := hmono (Nat.lt_succ_self _)
  calc (binary32.units c + binary32.units (c + 1)) * 2 ^ 924
      ≤ 2 ^ 278 * 2 ^ 924 := Nat.mul_le_mul_right _ (by omega)
    _ < binary64.units binary64.infinity := by decide +kernel

/-- Which float a double is rounded to depends on its side of the middles. -/
theorem ofRatio_binary64_le_iff {a : Nat} (ha : a < binary32.infinity) (code : Nat) :
    binary32.ofRatio (binary64.units code) binary64.scale ≤ a
      ↔ binary64.units code < (binary32.units a + binary32.units (a + 1)) * 2 ^ 924
        ∨ binary64.units code = (binary32.units a + binary32.units (a + 1)) * 2 ^ 924
          ∧ a % 2 = 0 := by
  have hscale : binary64.scale = 2 ^ 924 * (2 * binary32.scale) := by decide +kernel
  have hden := binary64.scale_pos
  have hpos : 0 < 2 * binary32.scale := Nat.mul_pos Nat.two_pos binary32.scale_pos
  generalize 2 ^ 924 = w at hscale ⊢
  rw [ofRatio_le_iff (by decide) hden ha, hscale, Nat.mul_left_comm, ← Nat.mul_assoc _ w,
    Nat.mul_lt_mul_right hpos, Nat.mul_left_inj hpos.ne']

/-- A double is rounded to a float if it lies on the sides of the middles to the next floats on
    which a point of the interval of the float lies. -/
theorem convert_eq {c code p : Nat} (hfinite : c + 1 < binary32.infinity)
    (hin : (binary32.interval (c + 1)).contains p = true)
    (hsides : ∀ a, a = c ∨ a = c + 1 →
      SameSide p ((binary32.units a + binary32.units (a + 1)) * 10 ^ 54) (binary64.units code)
        ((binary32.units a + binary32.units (a + 1)) * 2 ^ 924)) :
    code < binary64.infinity ∧ binary64.convert binary32 code = c + 1 := by
  have hbounds := Interval.bounds_of_contains hin
  have hclosed := Interval.closed_of_contains hin
  rw [interval_succ] at hbounds hclosed
  simp only [decide_eq_true_eq] at hbounds hclosed
  have hlow := hsides c (.inl rfl)
  have hhigh := hsides (c + 1) (.inr rfl)
  have hend := middle_lt_infinity hfinite
  have hround (a : Nat) (ha : a < binary32.infinity) := ofRatio_binary64_le_iff ha code
  generalize 2 ^ 924 = w at hlow hhigh hend hround
  -- The double is not above the middle to what comes after the greatest float.
  have hcode : code < binary64.infinity := by
    refine binary64.units_strictMono.lt_iff_lt.1 (Nat.lt_of_le_of_lt ?_ hend)
    rcases Nat.lt_or_eq_of_le hbounds.2 with hless | heq
    · exact Nat.le_of_lt (hhigh.below hless)
    · exact Nat.le_of_eq (hhigh.exact heq)
  refine ⟨hcode, ?_⟩
  rw [convert, if_pos hcode]
  -- Rounding looks at the two middles next to the float; the ends count if its code is even.
  refine Nat.le_antisymm ((hround (c + 1) hfinite).2 ?_) (Nat.lt_of_not_le fun h => ?_)
  · rcases Nat.lt_or_eq_of_le hbounds.2 with hless | heq
    · exact .inl (hhigh.below hless)
    · exact .inr ⟨hhigh.exact heq, hclosed (.inr heq)⟩
  · have hround' := (hround c (Nat.lt_of_succ_lt hfinite)).1 h
    rcases Nat.lt_or_eq_of_le hbounds.1 with hless | heq
    · have habove := hlow.above hless
      omega
    · have hexact := hlow.exact heq.symm
      have heven := hclosed (.inl heq.symm)
      omega

/-! ### The doubles of shortest decimals -/

/-- A quotient that is a whole number of few digits is rounded to this number. -/
theorem units_ofRatio_whole {F : Format} {num den v : Nat} (hbits : 0 < F.fractionBits)
    (hden : 0 < den) (hv : v < 2 * F.fieldSize) (hfinite : v * F.scale < F.units F.infinity)
    (h : num * F.scale = v * F.scale * den) : F.units (F.ofRatio num den) = v * F.scale :=
  units_ofRatio hbits hden hv hfinite h

/-- Natural numbers of 53 bits are doubles. -/
theorem whole_lt_infinity {v : Nat} (hv : v < 2 ^ 53) :
    v * binary64.scale < binary64.units binary64.infinity := by
  have hend : 2 ^ 53 * binary64.scale < binary64.units binary64.infinity := by decide +kernel
  exact (Nat.mul_lt_mul_of_pos_right hv binary64.scale_pos).trans hend

/-- And they are so exactly. -/
theorem units_ofNat_binary64 {d : Nat} (hd : d < 2 ^ 53) :
    binary64.units (binary64.ofNat d) = d * binary64.scale := by
  exact units_ofRatio_whole (by decide) Nat.one_pos (hd.trans_eq (by decide))
    (whole_lt_infinity hd) (Nat.mul_one _).symm

/-- A decimal of a place is scaled by the moved power of ten. -/
theorem scale?_place {d k : Nat} (hd : d < 2 ^ 53) (hk : k < 94) : ∃ num den, 0 < den
    ∧ num * binary64.scale * movedDen k = d * movedNum k * 2 ^ 924 * den
    ∧ (binary64.ofRatio num den < binary64.infinity →
      scale? d ((k : Int) - 54) = some (binary64.ofRatio num den)) := by
  have hden := binary64.scale_pos
  -- From the place 54 on one multiplies by a power of ten, before it one divides.
  by_cases hplace : 54 ≤ k
  · refine ⟨d * binary64.scale * binary64.units (powerOfTen (k - 54)),
      binary64.scale * binary64.scale, Nat.mul_pos hden hden, ?_, fun hfinite => ?_⟩
    · rw [movedDen, movedNum, if_pos hplace, if_pos hplace]
      generalize 2 ^ 924 = w
      ring
    · have hnonneg : ¬ (k : Int) - 54 < 0 := by omega
      have hpower : ((k : Int) - 54).toNat = k - 54 := by omega
      simp only [scale?, if_neg hnonneg, hpower, mul, units_ofNat_binary64 hd]
      rw [if_pos (by omega), if_pos hfinite]
  · refine ⟨d * binary64.scale, binary64.units (powerOfTen (54 - k)), ?_, ?_, fun _ => ?_⟩
    · have hmoved := (movedNum_close k hk).1
      rwa [movedDen, if_neg hplace] at hmoved
    · have hscale : binary64.scale * binary64.scale = 2 ^ 1224 * 2 ^ 924 := by decide +kernel
      rw [movedDen, movedNum, if_neg hplace, if_neg hplace, Nat.mul_assoc d, hscale]
      generalize 2 ^ 924 = w
      generalize 2 ^ 1224 = v
      ring
    · have hneg : (k : Int) - 54 < 0 := by omega
      have hpower : ((k : Int) - 54).natAbs = 54 - k := by omega
      simp only [scale?, if_pos hneg, hpower]
      rw [divideByPower, if_pos (by omega), div, units_ofNat_binary64 hd]

/-- A whole decimal that is written with a zero after the point is a double. -/
theorem scale?_whole {d p : Nat} (hd : d * 10 ^ (p + 1) < 2 ^ 53) :
    ∃ code, scale? (d * 10 ^ (p + 1)) (-1) = some code
      ∧ binary64.units code = d * 10 ^ p * binary64.scale := by
  have hden := binary64.scale_pos
  have hten : binary64.units (powerOfTen 1) = 10 * binary64.scale := by
    rw [← units_ofNat_binary64 (d := 10) (by decide)]
    rfl
  have hless : d * 10 ^ p < 2 ^ 53 := by
    rw [Nat.pow_succ, ← Nat.mul_assoc] at hd
    omega
  refine ⟨binary64.ofRatio (d * 10 ^ (p + 1) * binary64.scale) (10 * binary64.scale), ?_, ?_⟩
  · simp only [scale?]
    rw [if_pos (by decide), divideByPower, if_pos (by decide), div, units_ofNat_binary64 hd]
    rw [show (-1 : Int).natAbs = 1 from rfl, hten]
  · refine units_ofRatio_whole (by decide) (Nat.mul_pos (by decide) hden)
      (hless.trans_eq (by decide)) (whole_lt_infinity hless) ?_
    generalize binary64.scale = s
    ring

/-- The double that the shortest decimal of a float is read as is rounded to the float. -/
theorem exists_scale?_shortest {c : Nat} (hfinite : c + 1 < binary32.infinity) {tie : Tie}
    {significand : Nat} {power : Int}
    (hdecimal : significand = (binary32.shortest tie (c + 1)).digits
        ∧ power = (binary32.shortest tie (c + 1)).power
      ∨ 0 ≤ (binary32.shortest tie (c + 1)).power ∧ significand < 2 ^ 53
        ∧ significand = (binary32.shortest tie (c + 1)).digits
          * 10 ^ ((binary32.shortest tie (c + 1)).power.toNat + 1) ∧ power = -1) :
    significand < 2 ^ 53 ∧ -54 ≤ power ∧ power < 40
      ∧ ∃ code, scale? significand power = some code
        ∧ binary64.convert binary32 code = c + 1 := by
  obtain ⟨d, k, hshortest, hk, hchosen, hwide⟩ := shortest_chosen hfinite tie
  have hdigits := digits_lt hfinite hchosen hwide
  have hstep : 0 < placeStep k := Nat.mul_pos (by decide) (Nat.pow_pos (by decide))
  rw [hshortest] at hdecimal
  dsimp only at hdecimal
  -- The shortest decimal is scaled, or a natural number with one more digit behind the point.
  rcases hdecimal with ⟨hsignificand, hpower⟩ | ⟨hnonneg, hfits, hsignificand, hpower⟩
  · obtain ⟨num, den, hden, hquotient, hscale⟩ := scale?_place (by omega : d < 2 ^ 53) hk
    have hconvert := convert_eq hfinite hchosen.contains fun a ha => by
      obtain ⟨b, n, hmiddle, hgap, hn, hb⟩ := exists_middle_binary32 (c := a) (by omega)
      have hcoarse := coarse_of_near ha.symm hmiddle hgap hchosen hstep
      have hside := sameSide_of_coarse hk hchosen.pos hn hb hden hquotient hcoarse
      rwa [← hmiddle] at hside
    rw [hsignificand, hpower]
    exact ⟨by omega, by omega, by omega, _, hscale hconvert.1, hconvert.2⟩
  · rw [hsignificand] at hfits
    obtain ⟨code, hcode, hunits⟩ := scale?_whole hfits
    rw [hsignificand, hpower]
    refine ⟨hfits, by decide, by decide, code, hcode,
      (convert_eq hfinite hchosen.contains fun a _ => ?_).2⟩
    refine SameSide.of_mul (c := 2 ^ 924) (e := 10 ^ 54) (by positivity) (by positivity) ?_ ?_
    · have hscale : binary64.scale = 2 ^ 150 * 2 ^ 924 := by decide +kernel
      have hplace : 10 ^ k = 10 ^ ((k : Int) - 54).toNat * 10 ^ 54 := by
        rw [← Nat.pow_add, show ((k : Int) - 54).toNat + 54 = k by omega]
      rw [hunits, hscale, placeStep, hplace]
      generalize 2 ^ 924 = w
      ring
    · exact Nat.mul_right_comm ..

end Format

/-! ### Floats that are read back -/

namespace Layout

variable {x : Binary32} {L : Layout}

/-- A numeral with a power of ten has that of its first digit. -/
theorem exponent_numeralOf (L : Layout) (F : Format) (negative : Bool) (code : Nat) :
    ∀ e ∈ (L.numeralOf F negative code).exponent, code ≠ 0 ∧ digitsValue e.digits
      = ((F.shortest L.tie code).power
        + (digitsOf (F.shortest L.tie code).digits).length - 1).natAbs := by
  unfold numeralOf
  split
  · exact nofun
  · dsimp only
    split
    · exact nofun
    · rintro _ ⟨⟩
      exact ⟨‹_›, digitsValue_digitsOf _⟩

/-- The powers of ten of finite floats are not large. -/
theorem exponent_numeral_le (hx : x.isFinite = true) :
    ∀ e ∈ (L.numeral x).exponent, digitsValue e.digits ≤ exponentLimit := by
  intro e he
  have hfinite : x.code < Format.binary32.infinity := of_decide_eq_true hx
  obtain ⟨hcode, hvalue⟩ := L.exponent_numeralOf Format.binary32 x.negative x.code e he
  have hpos := Nat.pos_of_ne_zero hcode
  obtain ⟨-, hlength⟩ := digits_shortest hpos hfinite L.tie
  obtain ⟨-, -, hlow, hhigh⟩ := Format.shortest_binary32 hpos hfinite L.tie
  have hlimit : 200 ≤ exponentLimit := by decide
  omega

end Layout

namespace Binary32

variable {x : Binary32}

/-- The decimal of a finite float is scaled to a double that is rounded to the float. -/
theorem exists_scale?_numeral (hx : x.isFinite = true) :
    (Layout.json.numeral x).significand < 2 ^ 53
      ∧ -54 ≤ (Layout.json.numeral x).power ∧ (Layout.json.numeral x).power < 40
      ∧ ∃ code, scale? (Layout.json.numeral x).significand (Layout.json.numeral x).power = some code
        ∧ Format.binary64.convert Format.binary32 code = x.code := by
  have hfinite : x.code < Format.binary32.infinity := of_decide_eq_true hx
  -- Zero is written apart from the others.
  rcases hcode : x.code with - | c
  · have hdecimal := @Layout.decimal_plain_of_nonneg [Digit.zero] 0 x.negative (Int.le_refl 0)
    have hzero : digitsValue [Digit.zero] * 10 ^ ((0 : Int).toNat + 1) = 0 * 10 ^ (0 + 1) := rfl
    obtain ⟨code, hscale, hunits⟩ := Format.scale?_whole (d := 0) (p := 0) (by decide)
    rw [Nat.zero_mul, Nat.zero_mul] at hunits
    have hcode' : code = 0 :=
      Format.binary64.units_strictMono.injective (hunits.trans (by simp [Format.units]))
    rw [Layout.numeral, Layout.numeralOf, if_pos hcode, hdecimal.1, hdecimal.2, hzero]
    rw [hcode'] at hscale
    exact ⟨by decide, by decide, by decide, 0, hscale, by decide +kernel⟩
  · rw [hcode] at hfinite
    have hdecimal := Layout.json.decimal_numeralOf Format.binary32 x.negative
      (by decide) (Nat.succ_ne_zero c)
    rw [Layout.numeral, hcode]
    refine Format.exists_scale?_shortest hfinite (hdecimal.imp_right ?_)
    rintro ⟨hnonneg, hfits, hsignificand, hpower⟩
    refine ⟨hnonneg, ?_, hsignificand, hpower⟩
    have hplain : (Layout.json.greatestPlain + 1).toNat = 13 := rfl
    rw [hplain] at hfits
    rw [hsignificand, Nat.pow_succ, ← Nat.mul_assoc]
    omega

/-- The number of a finite float is read as a double that is rounded to the float. -/
theorem exists_readDouble?_numeral (hx : x.isFinite = true) :
    ∃ code, (Layout.json.numeral x).readDouble? = some (.double x.negative code)
      ∧ Format.binary64.convert Format.binary32 code = x.code := by
  obtain ⟨hsignificand, hlow, hhigh, code, hscale, hconvert⟩ := exists_scale?_numeral hx
  have hnegative : (Layout.json.numeral x).negative = x.negative := Layout.negative_numeralOf ..
  refine ⟨code, ?_, hconvert⟩
  rw [Numeral.readDouble?_eq (Nat.le_trans (Nat.le_of_lt hsignificand) (by decide))
    (Layout.exponent_numeral_le hx) (by omega) (by rw [exponentLimit]; omega), hscale, hnegative]
  rfl

/-- A finite float is read back as it is. -/
theorem reread_eq (hx : x.isFinite = true) : x.reread = x := by
  obtain ⟨code, hread, hconvert⟩ := exists_readDouble?_numeral hx
  rw [reread, Layout.read?_numeral, hread, Option.map_some, Option.getD_some, Reading.toBinary32,
    hconvert, ofCode_negative_code]

end Binary32

end MaterialNet
