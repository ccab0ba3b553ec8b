import Mathlib.Tactic.LinearCombination
import Mathlib.Tactic.Linarith
import MaterialNet.Number.Reading

namespace MaterialNet

/-!
# Decimals and the middles between floats

A decimal `d * 10 ^ p` is read as `d` times a double next to the power of ten, which moves it a
little.  It must not be moved across the middle between two floats.  Such a middle is `n` places of
some power of two, `n` being below `2 ^ 25`, so only the fractions `n / d` with a small denominator
can come close to the ratio of the powers.  Two neighbouring fractions around the ratio decide for
all of them: with `q * m' = q' * m + 1`, whatever is not one of `m / q` and `m' / q'` and has a
denominator below `q + q'` lies farther away than these two.

* `Apart` — a number and a moved one lie on the same side of a middle, the moved one not too close
* `Bracket`, `Bracket.apart` — neighbouring fractions around a ratio, and what they decide
* `narrow` — the search for them
* `bracketed`, `apart_of_coarse` — they exist for every power of ten that single precision needs
-/

/-! ### Moved numbers -/

/-- A number `x` that is moved to `z` stays on its side of a middle `n`, and away from it by more
    than `2 ^ -29` places `h`; only what is the middle may stay there. -/
structure Apart (x z n h : Nat) : Prop where
  below : x < n → 2 ^ 29 * z + h < 2 ^ 29 * n
  exact : x = n → z = n
  above : n < x → 2 ^ 29 * n + h < 2 ^ 29 * z

namespace Apart

variable {x z n h : Nat}

theorem of_below (hx : x < n) (hz : 2 ^ 29 * z + h < 2 ^ 29 * n) : Apart x z n h :=
  ⟨fun _ => hz, fun heq => absurd heq (Nat.ne_of_lt hx), fun hgt => absurd hgt (Nat.lt_asymm hx)⟩

theorem of_above (hx : n < x) (hz : 2 ^ 29 * n + h < 2 ^ 29 * z) : Apart x z n h :=
  ⟨fun hlt => absurd hlt (Nat.lt_asymm hx), fun heq => absurd heq (Nat.ne_of_gt hx), fun _ => hz⟩

theorem of_exact (hx : x = n) (hz : z = n) : Apart x z n h :=
  ⟨fun hlt => absurd hx (Nat.ne_of_lt hlt), fun _ => hz, fun hgt => absurd hx (Nat.ne_of_gt hgt)⟩

/-- A number that is moved by its `2 ^ -52` at most stays on its side of a middle that is far
    away. -/
theorem of_far (hh : 0 < h) (hn : n + h ≤ 2 ^ 25 * h)
    (hclose : 2 ^ 52 * x ≤ 2 ^ 52 * z + x ∧ 2 ^ 52 * z ≤ 2 ^ 52 * x + x)
    (hfar : 6 * x + h ≤ 6 * n ∨ 6 * n + h ≤ 6 * x) : Apart x z n h := by
  rcases hfar with hbelow | habove
  · exact of_below (by omega) (by omega)
  · exact of_above (by omega) (by omega)

end Apart

/-! ### Neighbouring fractions -/

/-- Neighbouring fractions `m / q` and `m' / q'` around the ratio of `a` to `h`, of which the upper
    one is not met, that have small denominators but no fraction below a bound between them.  The
    ratio of `a'` to `h` lies between them as well, and keeps its distance. -/
structure Bracket (a a' h bound m q m' q' : Nat) : Prop where
  neighbours : q * m' = q' * m + 1
  wide : bound < q + q'
  lower : m * h = q * a ∧ m * h = q * a' ∨ m * h < q * a ∧ 2 ^ 29 * (m * h) + h < 2 ^ 29 * (q * a')
  upper : q' * a < m' * h ∧ 2 ^ 29 * (q' * a') + h < 2 ^ 29 * (m' * h)

instance (a a' h bound m q m' q' : Nat) : Decidable (Bracket a a' h bound m q m' q') :=
  decidable_of_iff (q * m' = q' * m + 1 ∧ bound < q + q'
    ∧ (m * h = q * a ∧ m * h = q * a'
      ∨ m * h < q * a ∧ 2 ^ 29 * (m * h) + h < 2 ^ 29 * (q * a'))
    ∧ q' * a < m' * h ∧ 2 ^ 29 * (q' * a') + h < 2 ^ 29 * (m' * h))
    ⟨fun ⟨hn, hw, hl, hu⟩ => ⟨hn, hw, hl, hu⟩, fun ⟨hn, hw, hl, hu⟩ => ⟨hn, hw, hl, hu⟩⟩

/-- A denominator that is smaller than two together is no sum of multiples of both. -/
theorem opposite_signs {q q' d : Nat} {s t : Int} (hden : (d : Int) = s * q + t * q') (hd : 0 < d)
    (hlt : d < q + q') : 0 < s ∧ t ≤ 0 ∨ s ≤ 0 ∧ 0 < t := by
  rcases lt_or_ge 0 s with hs | hs <;> rcases lt_or_ge 0 t with ht | ht
  · have hq : (q : Int) ≤ s * q := le_mul_of_one_le_left (by omega) hs
    have hq' : (q' : Int) ≤ t * q' := le_mul_of_one_le_left (by omega) ht
    omega
  · exact .inl ⟨hs, ht⟩
  · exact .inr ⟨hs, ht⟩
  · have hq : s * q ≤ 0 := mul_nonpos_of_nonpos_of_nonneg hs (by omega)
    have hq' : t * q' ≤ 0 := mul_nonpos_of_nonpos_of_nonneg ht (by omega)
    omega

/-- A multiple of the ratio that is not beyond the bound stays on its side of every middle. -/
theorem Bracket.apart {a a' h bound m q m' q' d n : Nat} (hb : Bracket a a' h bound m q m' q')
    (hd : 0 < d) (hbound : d ≤ bound) : Apart (d * a) (d * a') (n * h) h := by
  obtain ⟨hneighbours, hwide, hlower, hupper, hupper'⟩ := hb
  -- `d` and `n` are combinations of the denominators and numerators, with these coefficients.
  obtain ⟨s, hs⟩ : ∃ s : Int, s = d * m' - n * q' := ⟨_, rfl⟩
  obtain ⟨t, ht⟩ : ∃ t : Int, t = n * q - d * m := ⟨_, rfl⟩
  have hneighbours' : (q : Int) * m' = q' * m + 1 := by exact_mod_cast hneighbours
  have hden : (d : Int) = s * q + t * q' := by
    rw [hs, ht]
    linear_combination -(d : Int) * hneighbours'
  have hdist (b : Int) : d * b - n * h = s * (q * b - m * h) - t * (m' * h - q' * b) := by
    rw [hs, ht]
    linear_combination (n * h - d * b : Int) * hneighbours'
  have hx := hdist a
  have hz := hdist a'
  -- The distances of the two fractions, before the move and after it.
  obtain ⟨e, he⟩ : ∃ e : Int, e = q * a - m * h := ⟨_, rfl⟩
  obtain ⟨f, hf⟩ : ∃ f : Int, f = q * a' - m * h := ⟨_, rfl⟩
  obtain ⟨e', he'⟩ : ∃ e' : Int, e' = m' * h - q' * a := ⟨_, rfl⟩
  obtain ⟨f', hf'⟩ : ∃ f' : Int, f' = m' * h - q' * a' := ⟨_, rfl⟩
  rw [← he, ← he'] at hx
  rw [← hf, ← hf'] at hz
  have hlow : e = 0 ∧ f = 0 ∨ 0 < e ∧ h < 2 ^ 29 * f := by
    rcases hlower with ⟨heq, heq'⟩ | ⟨hlt, hlt'⟩
    · exact .inl ⟨by rw [he]; omega, by rw [hf]; omega⟩
    · exact .inr ⟨by rw [he]; omega, by rw [hf]; omega⟩
  have hup : 0 < e' ∧ h < 2 ^ 29 * f' := ⟨by rw [he']; omega, by rw [hf']; omega⟩
  rcases opposite_signs hden hd (Nat.lt_of_le_of_lt hbound hwide) with ⟨hs0, ht0⟩ | ⟨hs0, ht0⟩
  · -- The multiple lies with the lower fraction or beyond it.
    have hse : e ≤ s * e := le_mul_of_one_le_left (by omega) hs0
    have hsf : f ≤ s * f := le_mul_of_one_le_left (by omega) hs0
    have hte : t * e' ≤ 0 := mul_nonpos_of_nonpos_of_nonneg ht0 (by omega)
    have htf : t * f' ≤ 0 := mul_nonpos_of_nonpos_of_nonneg ht0 (by omega)
    rcases hlow with ⟨rfl, rfl⟩ | ⟨hlt, hlt'⟩
    · -- The lower fraction is the ratio itself, and so is a multiple of it.
      rw [Int.mul_zero, Int.zero_sub] at hx hz
      rcases eq_or_lt_of_le ht0 with rfl | htneg
      · rw [Int.zero_mul] at hx hz
        exact Apart.of_exact (by omega) (by omega)
      · have hte' : t * e' ≤ -1 * e' := mul_le_mul_of_nonneg_right (by omega) (by omega)
        have htf' : t * f' ≤ -1 * f' := mul_le_mul_of_nonneg_right (by omega) (by omega)
        exact Apart.of_above (by omega) (by omega)
    · exact Apart.of_above (by omega) (by omega)
  · have hse : s * e ≤ 0 := mul_nonpos_of_nonpos_of_nonneg hs0 (by omega)
    have hsf : s * f ≤ 0 := mul_nonpos_of_nonpos_of_nonneg hs0 (by omega)
    have hte : e' ≤ t * e' := le_mul_of_one_le_left (by omega) ht0
    have htf : f' ≤ t * f' := le_mul_of_one_le_left (by omega) ht0
    exact Apart.of_below (by omega) (by omega)

/-- A multiple of a ratio that is moved by its `2 ^ -52` at most stays on its side of a middle, if
    neighbouring fractions decide for the multiples that come close to it. -/
theorem apart_of_bracket {a a' h den d n : Nat} (hd : 0 < d) (hn : n < 2 ^ 25) (ha : 0 < a)
    (hh : 0 < h) (hden : 0 < den) (hclose : 2 ^ 52 * (a * den) ≤ 2 ^ 52 * a' + a * den
      ∧ 2 ^ 52 * a' ≤ 2 ^ 52 * (a * den) + a * den)
    (hbracket : 6 * (n * h) < 6 * (d * a) + h → 6 * (d * a) < 6 * (n * h) + h → a < 2 ^ 25 * h →
      ∃ m q m' q', Bracket (a * den) a' (h * den) (2 ^ 25 * h / a) m q m' q') :
    Apart (d * (a * den)) (d * a') (n * (h * den)) (h * den) := by
  have hnh : n * h + h ≤ 2 ^ 25 * h := by
    rw [← Nat.succ_mul]
    exact Nat.mul_le_mul_right h hn
  have had : a ≤ d * a := Nat.le_mul_of_pos_left a hd
  by_cases hnear : 6 * (n * h) < 6 * (d * a) + h ∧ 6 * (d * a) < 6 * (n * h) + h
  · obtain ⟨m, q, m', q', hb⟩ := hbracket hnear.1 hnear.2 (by omega)
    refine hb.apart hd ?_
    rw [Nat.le_div_iff_mul_le ha]
    omega
  · -- Far away from the middle the move is too small to matter.
    have hscale {x y : Nat} (hxy : x ≤ y) : x * den ≤ y * den := Nat.mul_le_mul_right den hxy
    have hmove {x y : Nat} (hxy : x ≤ y) : d * x ≤ d * y := Nat.mul_le_mul_left d hxy
    refine Apart.of_far (Nat.mul_pos hh hden) ?_ ⟨?_, ?_⟩ ?_
    · simpa only [Nat.add_mul, Nat.mul_assoc] using hscale hnh
    · simpa only [Nat.mul_add, Nat.mul_left_comm d] using hmove hclose.1
    · simpa only [Nat.mul_add, Nat.mul_left_comm d] using hmove hclose.2
    · have hfar : 6 * (d * a) + h ≤ 6 * (n * h) ∨ 6 * (n * h) + h ≤ 6 * (d * a) := by omega
      simpa only [Nat.add_mul, Nat.mul_assoc] using hfar.imp hscale hscale

/-- Narrows neighbouring fractions `m / q` and `m' / q'` around a ratio, of which `q` and `q'`
    times the ratio are the distances `e` and `e'` away.  The lower fraction goes up as far as the
    ratio and the bound permit, then the upper one goes down, and so on in turn. -/
def narrow (bound : Nat) : Nat → Nat → Nat → Nat → Nat → Nat → Nat → Nat × Nat × Nat × Nat
  | 0, m, q, _, m', q', _ => (m, q, m', q')
  | fuel + 1, m, q, e, m', q', e' =>
    if bound < q + q' then (m, q, m', q')
    else
      let up := min (e / e') ((bound - q) / q')
      let m := m + up * m'
      let q := q + up * q'
      let e := e - up * e'
      -- The upper fraction must not reach the ratio.
      let down := (bound - q') / q
      let down := if e = 0 then down else min ((e' - 1) / e) down
      narrow bound fuel m q e (m' + down * m) (q' + down * q) (e' - down * e)

/-! ### Powers of ten -/

/-- The decimals of the place `k` are the multiples of `10 ^ (k - 54)`.  This is that power, in
    units of `2 ^ -150 * 10 ^ -54`. -/
def placeStep (k : Nat) : Nat := 2 ^ 150 * 10 ^ k

/-- The power of ten that a decimal of the place `k` is scaled with in double precision, as a
    quotient in units of `2 ^ -150`. -/
def movedNum (k : Nat) : Nat :=
  if 54 ≤ k then Format.binary64.units (powerOfTen (k - 54)) else 2 ^ 1224

/-- The denominator that belongs to `movedNum`. -/
def movedDen (k : Nat) : Nat :=
  if 54 ≤ k then 2 ^ 924 else Format.binary64.units (powerOfTen (54 - k))

/-- There are neighbouring fractions around the ratio of a place to `2 ^ i` that decide for all
    decimals of the place, if the ratio is not too small or too large. -/
def Bracketed (k i : Nat) : Prop :=
  let a := placeStep k
  let h := 2 ^ i * 10 ^ 54
  let bound := 2 ^ 25 * h / a
  4 * h ≤ 3 * a → a < 2 ^ 25 * h →
    let r := narrow bound 16 (a / h) 1 (a % h) (a / h + 1) 1 (h - a % h)
    Bracket (a * movedDen k) (movedNum k * 10 ^ 54) (h * movedDen k) bound r.1 r.2.1 r.2.2.1 r.2.2.2

instance (k i : Nat) : Decidable (Bracketed k i) := by
  unfold Bracketed
  infer_instance

/-- The powers of ten are not moved by more than their `2 ^ -52`. -/
theorem movedNum_close : ∀ k < 94, 0 < movedDen k
    ∧ 2 ^ 52 * (placeStep k * movedDen k)
      ≤ 2 ^ 52 * (movedNum k * 10 ^ 54) + placeStep k * movedDen k
    ∧ 2 ^ 52 * (movedNum k * 10 ^ 54)
      ≤ 2 ^ 52 * (placeStep k * movedDen k) + placeStep k * movedDen k := by
  decide +kernel

/-- The search succeeds for all powers that come into question. -/
theorem bracketed_log2 : ∀ k < 94, ∀ j < 25,
    Bracketed k ((placeStep k / 10 ^ 54).log2 - j) := by
  decide +kernel

/-- The search finds such fractions for every place that single precision needs. -/
theorem bracketed {k : Nat} (hk : k < 94) (i : Nat) : Bracketed k i := by
  intro hlow hhigh
  have hten : (0 : Nat) < 10 ^ 54 := by decide
  have hquot : 2 ^ i ≤ placeStep k / 10 ^ 54 ∧ placeStep k / 10 ^ 54 < 2 ^ (i + 25) := by
    constructor
    · rw [Nat.le_div_iff_mul_le hten]
      omega
    · rw [Nat.div_lt_iff_lt_mul hten, Nat.pow_add, Nat.mul_comm (2 ^ i), Nat.mul_assoc]
      exact hhigh
  have hzero : placeStep k / 10 ^ 54 ≠ 0 :=
    Nat.ne_of_gt (Nat.lt_of_lt_of_le (Nat.pow_pos (by decide)) hquot.1)
  have hlog := (Nat.le_log2 hzero).2 hquot.1
  have hlog' := (Nat.log2_lt hzero).2 hquot.2
  have hj := bracketed_log2 k hk ((placeStep k / 10 ^ 54).log2 - i) (by omega)
  rw [Nat.sub_sub_self hlog] at hj
  exact hj hlow hhigh

/-- A decimal that is scaled in double precision stays on its side of a middle between two floats,
    if its place is not too fine where it comes close to the middle. -/
theorem apart_of_coarse {k i d n : Nat} (hk : k < 94) (hd : 0 < d) (hn : n < 2 ^ 25)
    (hcoarse : 6 * (n * (2 ^ i * 10 ^ 54)) < 6 * (d * placeStep k) + 2 ^ i * 10 ^ 54
      → 6 * (d * placeStep k) < 6 * (n * (2 ^ i * 10 ^ 54)) + 2 ^ i * 10 ^ 54
      → 4 * (2 ^ i * 10 ^ 54) ≤ 3 * placeStep k) :
    Apart (d * (placeStep k * movedDen k)) (d * (movedNum k * 10 ^ 54))
      (n * (2 ^ i * 10 ^ 54 * movedDen k)) (2 ^ i * 10 ^ 54 * movedDen k) := by
  obtain ⟨hden, hclose⟩ := movedNum_close k hk
  have hstep : 0 < placeStep k := Nat.mul_pos (by decide) (Nat.pow_pos (by decide))
  have hunit : 0 < 2 ^ i * 10 ^ 54 := Nat.mul_pos (Nat.pow_pos (by decide)) (by decide)
  refine apart_of_bracket hd hn hstep hunit hden hclose ?_
  intro hlow hhigh hratio
  exact ⟨_, _, _, _, bracketed hk i (hcoarse hlow hhigh) hratio⟩

end MaterialNet
