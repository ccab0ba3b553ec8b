import Mathlib.Tactic.Ring
import MaterialNet.Proofs.Nearest
import MaterialNet.Proofs.Numerals
import MaterialNet.Proofs.Separation

namespace MaterialNet

/-!
# The shortest decimal of a float

The finest grid always has a point in the interval of a float, so the search for the coarsest one
ends with a point of the interval.  The points next to it are farther from the float or do not lie
in the interval.  A point that comes close to an end of the interval therefore belongs to a grid
that is coarse compared with the distance between floats.

* `Interval.Chosen`, `Interval.chosen_of_gridPoint?` — the point that is taken from a grid
* `Interval.coarsest_chosen` — the point of the coarsest grid
* `Interval.Chosen.coarse_of_high`, `Interval.Chosen.coarse_of_low` — points close to an end
* `Format.shortest_chosen`, `Format.digits_lt` — the shortest decimal of a single-precision float
-/

namespace Interval

variable {I : Interval} {tie : Tie} {step unit k w p : Nat}

/-! ### Points of the interval -/

theorem bounds_of_contains (h : I.contains p = true) : I.low ≤ p ∧ p ≤ I.high := by
  unfold contains at h
  split at h <;> simp at h <;> omega

theorem bounds_of_not_contains (h : I.contains p = false) : p ≤ I.low ∨ I.high ≤ p := by
  unfold contains at h
  split at h <;> simp at h <;> omega

/-- An end of an interval lies in it only if it is closed. -/
theorem closed_of_contains (h : I.contains p = true) (hend : p = I.low ∨ p = I.high) :
    I.closed = true := by
  unfold contains at h
  split at h
  · assumption
  · simp at h
    omega

/-! ### The point of a grid -/

/-- The `k`th point of a grid lies in the interval, and none of its neighbours there is closer to
    the centre. -/
structure Chosen (I : Interval) (step k : Nat) : Prop where
  pos : 0 < k
  contains : I.contains (k * step) = true
  above : I.centre < k * step →
    I.contains (k * step - step) = false ∨ 2 * (k * step) ≤ 2 * I.centre + step
  below : k * step ≤ I.centre →
    I.contains (k * step + step) = false ∨ 2 * I.centre ≤ 2 * (k * step) + step

/-- The point below the centre is chosen if it fits and the one above it does not or is not
    closer. -/
theorem chosen_below (hstep : 0 < step)
    (hfits : (I.centre / step ≠ 0 && I.contains (I.centre / step * step)) = true)
    (hother : I.contains ((I.centre / step + 1) * step) = false
      ∨ 2 * (I.centre % step) ≤ step) : I.Chosen step (I.centre / step) := by
  have hdiv : I.centre / step * step + I.centre % step = I.centre := Nat.div_add_mod' ..
  have hmod : I.centre % step < step := Nat.mod_lt _ hstep
  obtain ⟨hne, hin⟩ := Bool.and_eq_true_iff.1 hfits
  refine ⟨Nat.pos_of_ne_zero (of_decide_eq_true hne), hin, fun hlt => by omega, fun _ => ?_⟩
  rw [← Nat.succ_mul]
  exact hother.imp_right fun _ => by omega

/-- The point above the centre is chosen if it fits and the one below it does not or is not
    closer. -/
theorem chosen_above (hlow : 0 < I.low) (hstep : 0 < step)
    (hfits : I.contains ((I.centre / step + 1) * step) = true)
    (hother : (I.centre / step ≠ 0 && I.contains (I.centre / step * step)) = false
      ∨ step ≤ 2 * (I.centre % step)) : I.Chosen step (I.centre / step + 1) := by
  have hdiv : I.centre / step * step + I.centre % step = I.centre := Nat.div_add_mod' ..
  have hmod : I.centre % step < step := Nat.mod_lt _ hstep
  have hnext : (I.centre / step + 1) * step = I.centre / step * step + step := Nat.succ_mul ..
  -- Zero is no choice, since the interval lies above it.
  have hzero : I.contains 0 = false := by
    by_contra hin
    have := (bounds_of_contains (Bool.not_eq_false _ ▸ hin)).1
    omega
  refine ⟨Nat.succ_pos _, hfits, fun _ => ?_, fun hle => by omega⟩
  rw [hnext, Nat.add_sub_cancel]
  refine hother.imp (fun hno => ?_) fun _ => by omega
  rcases Bool.and_eq_false_iff.1 hno with hnone | hno
  · have hnone' : I.centre / step = 0 := Decidable.of_not_not (of_decide_eq_false hnone)
    rwa [hnone', Nat.zero_mul]
  · exact hno

/-- The point that is taken is the best one of the grid. -/
theorem chosen_of_gridPoint? (hlow : 0 < I.low) (hstep : 0 < step)
    (h : I.gridPoint? tie step = some k) : I.Chosen step k := by
  simp only [gridPoint?] at h
  -- If both neighbours of the centre are in the interval the closer one is taken, else the only
  -- one.
  split at h
  · obtain ⟨hfits, hfits'⟩ := Bool.and_eq_true_iff.1 ‹_›
    split at h
    · exact Option.some.inj h ▸ chosen_below hstep hfits (.inr (by omega))
    · split at h
      · exact Option.some.inj h ▸ chosen_above hlow hstep hfits' (.inr (by omega))
      · cases tie with
        | up => exact Option.some.inj h ▸ chosen_above hlow hstep hfits' (.inr (by omega))
        | even =>
          obtain rfl := Option.some.inj h
          split
          · exact chosen_below hstep hfits (.inr (by omega))
          · exact chosen_above hlow hstep hfits' (.inr (by omega))
  · rename_i hnotboth
    split at h
    · rename_i hfits
      refine Option.some.inj h ▸ chosen_below hstep hfits (.inl ?_)
      rw [hfits, Bool.true_and] at hnotboth
      exact Bool.eq_false_iff.2 hnotboth
    · rename_i hno
      split at h
      · exact Option.some.inj h ▸ chosen_above hlow hstep ‹_› (.inl (Bool.eq_false_iff.2 hno))
      · cases h

/-- An interval without a point of a grid is not longer than a step of the grid. -/
theorem high_le_of_gridPoint?_eq_none (hstep : 0 < step) (hcentre : I.low < I.centre)
    (hcentre' : I.centre < I.high) (h : I.gridPoint? tie step = none) : I.high ≤ I.low + step := by
  have hdiv : I.centre / step * step + I.centre % step = I.centre := Nat.div_add_mod' ..
  have hmod : I.centre % step < step := Nat.mod_lt _ hstep
  have hnext : (I.centre / step + 1) * step = I.centre / step * step + step := Nat.succ_mul ..
  -- Nothing is taken only if neither neighbour is in the interval.
  have hnone : (I.centre / step ≠ 0 && I.contains (I.centre / step * step)) = false
      ∧ I.contains ((I.centre / step + 1) * step) = false := by
    simp only [gridPoint?] at h
    split at h
    · split at h
      · cases h
      · split at h
        · cases h
        · cases tie <;> cases h
    · split at h
      · cases h
      · rename_i hbelow
        split at h
        · cases h
        · exact ⟨Bool.eq_false_iff.2 hbelow, Bool.eq_false_iff.2 ‹_›⟩
  have habove := bounds_of_not_contains hnone.2
  rcases Bool.and_eq_false_iff.1 hnone.1 with hzero | hbelow
  · have hzero' : I.centre / step = 0 := Decidable.of_not_not (of_decide_eq_false hzero)
    have hnil : I.centre / step * step = 0 := by rw [hzero', Nat.zero_mul]
    omega
  · have := bounds_of_not_contains hbelow
    omega

/-! ### The point of the coarsest grid -/

/-- If the finest grid is fine enough, the search ends with a point of the interval, and the next
    coarser grid has none. -/
theorem coarsest_chosen (tie : Tie) (unit : Nat) (hlow : 0 < I.low) (hunit : 0 < unit)
    (hfine : I.low + unit ≤ I.centre) (hhigh : I.centre < I.high) (n : Nat) :
    ∃ d k, I.coarsest tie unit n = (d, k) ∧ I.Chosen (unit * 10 ^ k) d
      ∧ (k = n ∨ I.high ≤ I.low + unit * 10 ^ (k + 1)) := by
  have hstep (m : Nat) : 0 < unit * 10 ^ m := Nat.mul_pos hunit (Nat.pow_pos (by decide))
  induction n with
  | zero =>
    rw [coarsest]
    cases hpoint : I.gridPoint? tie unit with
    | none =>
      have hwide := high_le_of_gridPoint?_eq_none hunit (by omega) hhigh hpoint
      exact absurd hwide (by omega)
    | some d =>
      exact ⟨d, 0, rfl, by simpa using chosen_of_gridPoint? hlow hunit hpoint, .inl rfl⟩
  | succ n ih =>
    rw [coarsest]
    cases hpoint : I.gridPoint? tie (unit * Nat.pow 10 (n + 1)) with
    | none =>
      -- There is no point of this grid, so it is too coarse; the one below may have some.
      have hwide := high_le_of_gridPoint?_eq_none (hstep (n + 1)) (by omega) hhigh hpoint
      obtain ⟨d, k, hr, hchosen, hk⟩ := ih
      refine ⟨d, k, hr, hchosen, .inr (hk.elim (fun heq => ?_) id)⟩
      rwa [heq]
    | some d =>
      exact ⟨d, n + 1, rfl, chosen_of_gridPoint? hlow (hstep (n + 1)) hpoint, .inl rfl⟩

/-! ### Points close to an end -/

/-- A point that is close to the upper end belongs to a coarse grid: the point below it is not in
    the interval, or the centre is as close. -/
theorem Chosen.coarse_of_high (h : I.Chosen step k) (hstep : 0 < step)
    (hhigh : I.high = I.centre + w) (hlow : 2 * I.low + w ≤ 2 * I.centre)
    (hnear : 6 * I.high < 6 * (k * step) + w) : 4 * w ≤ 3 * step := by
  have hin := bounds_of_contains h.contains
  have hle : step ≤ k * step := Nat.le_mul_of_pos_left step h.pos
  rcases h.above (by omega) with hout | hcloser
  · have := bounds_of_not_contains hout
    omega
  · omega

/-- A point that is close to the lower end belongs to a coarse grid. -/
theorem Chosen.coarse_of_low (h : I.Chosen step k) (hstep : 0 < step)
    (hlow : I.centre = I.low + w) (hhigh : I.centre + w ≤ I.high)
    (hnear : 6 * (k * step) < 6 * I.low + w) : 4 * w ≤ 3 * step := by
  have hin := bounds_of_contains h.contains
  rcases h.below (by omega) with hout | hcloser
  · have := bounds_of_not_contains hout
    omega
  · omega

end Interval

/-! ### Single-precision floats -/

namespace Format

variable {c : Nat}

/-- The middle between a float and the next one has few binary digits. -/
theorem exists_middle_binary32 (h : c < binary32.infinity) :
    ∃ b n, binary32.units c + binary32.units (c + 1) = n * 2 ^ b
      ∧ binary32.units (c + 1) = binary32.units c + 2 ^ b ∧ n < 2 ^ 25 ∧ b ≤ 253 := by
  obtain ⟨b, n, hmiddle, hgap, hn, hb⟩ := binary32.exists_middle c
  refine ⟨b, n, hmiddle, hgap, hn, ?_⟩
  have hinfinity : binary32.infinity = 255 * binary32.fieldSize := rfl
  rcases hb with rfl | hb
  · decide
  · have hfield : (b + 1) * binary32.fieldSize < 255 * binary32.fieldSize := by omega
    have := Nat.lt_of_mul_lt_mul_right hfield
    omega

/-- The ends of the interval of a float are the middles to the floats next to it. -/
theorem interval_succ (c : Nat) : binary32.interval (c + 1)
    = ⟨(binary32.units c + binary32.units (c + 1)) * 10 ^ 54, 2 * binary32.units (c + 1) * 10 ^ 54,
      (binary32.units (c + 1) + binary32.units (c + 1 + 1)) * 10 ^ 54, (c + 1) % 2 = 0⟩ := rfl

/-- A point that is close to an end of the interval of a float belongs to a grid that is coarse
    compared with the distance between floats there. -/
theorem coarse_of_near {a b n step k : Nat} (ha : a = c + 1 ∨ a = c)
    (hmiddle : binary32.units a + binary32.units (a + 1) = n * 2 ^ b)
    (hgap : binary32.units (a + 1) = binary32.units a + 2 ^ b)
    (hchosen : (binary32.interval (c + 1)).Chosen step k) (hstep : 0 < step)
    (hhigh : 6 * (n * (2 ^ b * 10 ^ 54)) < 6 * (k * step) + 2 ^ b * 10 ^ 54)
    (hlow : 6 * (k * step) < 6 * (n * (2 ^ b * 10 ^ 54)) + 2 ^ b * 10 ^ 54) :
    4 * (2 ^ b * 10 ^ 54) ≤ 3 * step := by
  obtain ⟨hcloser, htwice⟩ := binary32.units_gaps c
  rw [← Nat.mul_assoc n, ← hmiddle] at hhigh hlow
  rw [interval_succ] at hchosen
  rcases ha with rfl | rfl
  · exact hchosen.coarse_of_high hstep (by simp only; omega) (by simp only; omega) hhigh
  · exact hchosen.coarse_of_low hstep (by simp only; omega) (by simp only; omega) hlow

/-- The shortest decimal of a float is the chosen point of the grid of its place, and the grid of
    the next place has no point in the interval. -/
theorem shortest_chosen (hfinite : c + 1 < binary32.infinity) (tie : Tie) :
    ∃ d k : Nat, binary32.shortest tie (c + 1) = ⟨d, (k : Int) - 54⟩ ∧ k < 94
      ∧ (binary32.interval (c + 1)).Chosen (placeStep k) d
      ∧ (k = 93 ∨ (binary32.interval (c + 1)).high
        ≤ (binary32.interval (c + 1)).low + placeStep (k + 1)) := by
  have hmono := binary32.units_strictMono
  have hlt : binary32.units c < binary32.units (c + 1) := hmono (Nat.lt_succ_self c)
  have hlt' : binary32.units (c + 1) < binary32.units (c + 1 + 1) := hmono (Nat.lt_succ_self _)
  -- The finest grid has a step far below the distance between floats.
  obtain ⟨d, k, hr, hpoint, hwide⟩ := (binary32.interval (c + 1)).coarsest_chosen tie (2 ^ 150)
    (by rw [interval_succ]; simp only; omega) (by decide)
    (by rw [interval_succ]; simp only; omega) (by rw [interval_succ]; simp only; omega)
    (binary32.places + binary32.digits)
  have hunit : Nat.pow 2 (binary32.least + 1) = 2 ^ 150 := rfl
  have hshortest : binary32.shortest tie (c + 1) = ⟨d, (k : Int) - 54⟩ := by
    rw [shortest_eq, hunit, hr]
    rfl
  have hpower := (shortest_binary32 (Nat.succ_pos c) hfinite tie).2.2.2
  rw [hshortest] at hpower
  exact ⟨d, k, hshortest, by simp only at hpower; omega, hpoint, hwide⟩

/-- The shortest decimal of a float has few digits, since the grid of the next place is too coarse
    for the interval. -/
theorem digits_lt {k d : Nat} (hfinite : c + 1 < binary32.infinity)
    (hpoint : (binary32.interval (c + 1)).Chosen (placeStep k) d)
    (hwide : k = 93 ∨ (binary32.interval (c + 1)).high
      ≤ (binary32.interval (c + 1)).low + placeStep (k + 1)) : d < 10 * 2 ^ 25 := by
  obtain ⟨b, n, hmiddle, hgap, hn, hplace⟩ := exists_middle_binary32 hfinite
  have hlt : binary32.units c < binary32.units (c + 1) :=
    binary32.units_strictMono (Nat.lt_succ_self c)
  have hle := (Interval.bounds_of_contains hpoint.contains).2
  rw [interval_succ] at hle hwide
  simp only [hmiddle] at hle hwide
  rcases hwide with rfl | hwide
  · -- No float reaches the coarsest grid of all.
    have hstep : placeStep 93 ≤ d * placeStep 93 := Nat.le_mul_of_pos_left _ hpoint.pos
    have hsmall : n * 2 ^ b * 10 ^ 54 ≤ 2 ^ 25 * 2 ^ 253 * 10 ^ 54 := by gcongr; decide
    have hbeyond : 2 ^ 25 * 2 ^ 253 * 10 ^ 54 < placeStep 93 := by decide +kernel
    omega
  · have hnext : placeStep (k + 1) = 10 * placeStep k := by
      unfold placeStep
      ring
    have hspace : 2 ^ b * 10 ^ 54 ≤ 10 * placeStep k := by
      have hsum : binary32.units c + binary32.units (c + 1) + 2 ^ b ≤ n * 2 ^ b := by omega
      have hscaled := Nat.mul_le_mul_right (10 ^ 54) hsum
      rw [Nat.add_mul] at hscaled
      exact hnext ▸ Nat.le_of_add_le_add_left (Nat.le_trans hscaled hwide)
    have hpos : 0 < placeStep k := Nat.mul_pos (by decide) (Nat.pow_pos (by decide))
    have hd : d * placeStep k ≤ 10 * n * placeStep k := by
      calc d * placeStep k
          ≤ n * (2 ^ b * 10 ^ 54) := by rwa [← Nat.mul_assoc]
        _ ≤ n * (10 * placeStep k) := Nat.mul_le_mul_left n hspace
        _ = 10 * n * placeStep k := by ring
    have := Nat.le_of_mul_le_mul_right hd hpos
    omega

end Format

end MaterialNet
