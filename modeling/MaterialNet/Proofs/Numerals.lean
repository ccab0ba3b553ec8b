import MaterialNet.Number.Layout
import MaterialNet.Proofs.Rounding

namespace MaterialNet

/-!
# Numerals that are read

A float is written with few digits and with a small power of ten, so the numeral of a finite float
always stands for a double.  The numerals of floats and of integers have no zero in front of other
digits, and digits wherever a reader expects some.

* `Format.shortest_binary32` — how many digits a single-precision float needs, and where they stand
* `Numeral.WellWritten` — numerals that a reader of numbers takes as they are
* `Layout.wellWritten_numeral`, `Layout.isSome_read?_numeral` — the numerals of finite floats
* `Numeral.wellWritten_ofInt`, `Numeral.read?_ofInt` — the numerals of integers
-/

/-! ### Digits of a natural number -/

/-- No zero stands in front of the digits of a number. -/
theorem digitsOf_eq_zero_cons {n : Nat} {ds : List Digit} (h : digitsOf n = Digit.zero :: ds) :
    n = 0 ∧ ds = [] := by
  induction n using digitsOf.induct generalizing ds with
  | case1 n hn =>
    rw [digitsOf, dif_pos hn] at h
    obtain ⟨hzero, rfl⟩ := List.cons.inj h
    exact ⟨congrArg Fin.val hzero, rfl⟩
  | case2 n hn ih =>
    rw [digitsOf, dif_neg hn] at h
    cases hrest : digitsOf (n / 10) with
    | nil => exact absurd hrest (digitsOf_ne_nil _)
    | cons d rest =>
      rw [hrest] at h
      obtain ⟨rfl, -⟩ := List.cons.inj h
      -- A number of two digits or more does not lose them all before its last one.
      have := (ih hrest).1
      omega

/-- A number below a power of ten has no more digits than the power says. -/
theorem length_digitsOf_le {n k : Nat} (h : n < 10 ^ (k + 1)) : (digitsOf n).length ≤ k + 1 := by
  induction k generalizing n with
  | zero =>
    rw [digitsOf, dif_pos (by simpa using h)]
    exact Nat.le_refl 1
  | succ k ih =>
    rw [digitsOf]
    split
    · simp
    · rw [List.length_append, List.length_singleton]
      have := ih (n := n / 10) (by rw [Nat.pow_succ] at h; omega)
      omega

/-! ### Shortest decimals -/

namespace Interval

variable {I : Interval} {tie : Tie} {unit : Nat}

/-- What an interval contains is not above it. -/
theorem le_high_of_contains {point : Nat} (h : I.contains point = true) : point ≤ I.high := by
  unfold contains at h
  split at h <;> simp at h <;> omega

/-- A grid point is not zero and does not lie beyond the interval. -/
theorem gridPoint?_le {step k : Nat} (h : I.gridPoint? tie step = some k) :
    0 < k ∧ k * step ≤ I.high := by
  have hbelow (hfits : (I.centre / step ≠ 0 && I.contains (I.centre / step * step)) = true) :
      0 < I.centre / step ∧ I.centre / step * step ≤ I.high := by
    obtain ⟨hne, hin⟩ := Bool.and_eq_true_iff.1 hfits
    exact ⟨Nat.pos_of_ne_zero (of_decide_eq_true hne), le_high_of_contains hin⟩
  have habove (hfits : I.contains ((I.centre / step + 1) * step) = true) :
      0 < I.centre / step + 1 ∧ (I.centre / step + 1) * step ≤ I.high :=
    ⟨Nat.succ_pos _, le_high_of_contains hfits⟩
  -- However a tie is settled, the point is the one below the centre or the next one.
  simp only [gridPoint?] at h
  split at h
  · rename_i hboth
    obtain ⟨hfits, hfits'⟩ := Bool.and_eq_true_iff.1 hboth
    split at h
    · exact Option.some.inj h ▸ hbelow hfits
    · split at h
      · exact Option.some.inj h ▸ habove hfits'
      · cases tie with
        | up => exact Option.some.inj h ▸ habove hfits'
        | even =>
          obtain rfl := Option.some.inj h
          split
          · exact hbelow hfits
          · exact habove hfits'
  · split at h
    · exact Option.some.inj h ▸ hbelow ‹_›
    · split at h
      · exact Option.some.inj h ▸ habove ‹_›
      · cases h

/-- The point of the coarsest grid is not zero, and it lies neither beyond the interval nor beyond
    its centre. -/
theorem coarsest_le (tie : Tie) (hunit : 0 < unit) (hcentre : unit ≤ I.centre) (n : Nat) :
    0 < (I.coarsest tie unit n).1 ∧ (I.coarsest tie unit n).1 * unit ≤ max I.centre I.high
      ∧ (I.coarsest tie unit n).2 ≤ n := by
  induction n with
  | zero =>
    rw [coarsest]
    cases hpoint : I.gridPoint? tie unit with
    | none =>
      refine ⟨Nat.div_pos hcentre hunit, ?_, Nat.le_refl 0⟩
      exact Nat.le_trans (Nat.div_mul_le_self _ _) (Nat.le_max_left _ _)
    | some k =>
      obtain ⟨hpos, hle⟩ := gridPoint?_le hpoint
      exact ⟨hpos, Nat.le_trans hle (Nat.le_max_right _ _), Nat.le_refl 0⟩
  | succ n ih =>
    rw [coarsest]
    -- A coarse point is found at this step, or it is looked for at finer ones.
    cases hpoint : I.gridPoint? tie (unit * Nat.pow 10 (n + 1)) with
    | none => exact ⟨ih.1, ih.2.1, Nat.le_succ_of_le ih.2.2⟩
    | some k =>
      obtain ⟨hpos, hle⟩ := gridPoint?_le hpoint
      refine ⟨hpos, ?_, Nat.le_refl _⟩
      have hstep : unit ≤ unit * Nat.pow 10 (n + 1) :=
        Nat.le_mul_of_pos_right _ (Nat.pow_pos (by decide))
      exact Nat.le_trans (Nat.mul_le_mul_left _ hstep) (Nat.le_trans hle (Nat.le_max_right _ _))

end Interval

namespace Format

theorem units_pos {F : Format} {code : Nat} (h : 0 < code) : 0 < F.units code := by
  simp only [units]
  split
  · exact h
  · exact Nat.mul_pos (Nat.add_pos_left fieldSize_pos _) (Nat.pow_pos (by decide))

variable {F : Format} {code bound : Nat}

theorem shortest_eq (F : Format) (tie : Tie) (code : Nat) :
    F.shortest tie code
      = ⟨((F.interval code).coarsest tie (Nat.pow 2 (F.least + 1)) (F.places + F.digits)).1,
        ((F.interval code).coarsest tie (Nat.pow 2 (F.least + 1)) (F.places + F.digits)).2
          - F.places⟩ := rfl

/-- The shortest decimal has digits, which are bounded by the values of the code and the next one,
    and they stand between the smallest place of the format and its largest. -/
theorem shortest_le (hplaces : Nat.pow 2 (F.least + 1) ≤ Nat.pow 10 F.places) (hpos : 0 < code)
    (hlt : F.units code < bound) (hlt' : F.units (code + 1) < bound) (tie : Tie) :
    0 < (F.shortest tie code).digits
      ∧ (F.shortest tie code).digits * Nat.pow 2 (F.least + 1) < 2 * bound * Nat.pow 10 F.places
      ∧ -F.places ≤ (F.shortest tie code).power ∧ (F.shortest tie code).power ≤ F.digits := by
  have hten : 0 < Nat.pow 10 F.places := Nat.pow_pos (by decide)
  have hunit : 0 < Nat.pow 2 (F.least + 1) := Nat.pow_pos (by decide)
  have hcentre : Nat.pow 2 (F.least + 1) ≤ (F.interval code).centre :=
    Nat.le_trans hplaces (Nat.le_mul_of_pos_left _ (Nat.mul_pos (by decide) (units_pos hpos)))
  obtain ⟨hdigits, hle, hpower⟩ :=
    Interval.coarsest_le tie hunit hcentre (F.places + F.digits)
  rw [shortest_eq]
  refine ⟨hdigits, Nat.lt_of_le_of_lt hle (Nat.max_lt.2 ⟨?_, ?_⟩), ?_, ?_⟩
  · exact Nat.mul_lt_mul_of_pos_right (by omega) hten
  · exact Nat.mul_lt_mul_of_pos_right (by omega) hten
  · dsimp only
    omega
  · dsimp only
    omega

/-- A finite single-precision float other than zero has some digits, less than a hundred, and they
    stand between its smallest place and its largest. -/
theorem shortest_binary32 {code : Nat} (hpos : 0 < code) (hfinite : code < binary32.infinity)
    (tie : Tie) : 0 < (binary32.shortest tie code).digits
      ∧ (binary32.shortest tie code).digits < 10 ^ 100
      ∧ -54 ≤ (binary32.shortest tie code).power ∧ (binary32.shortest tie code).power ≤ 39 := by
  -- The code of infinity is still bounded, and it is next to the last finite one.
  have hunits {c : Nat} (hc : c ≤ binary32.infinity) :
      binary32.units c < 2 ^ (binary32.fractionBits + binary32.exponents) := by
    refine Nat.lt_of_lt_of_le (units_lt c) (Nat.pow_le_pow_right (by decide) ?_)
    exact Nat.add_le_add_left
      (Nat.div_le_of_le_mul (Nat.mul_comm _ binary32.fieldSize ▸ hc)) binary32.fractionBits
  obtain ⟨hdigits, hlt, hpower⟩ :=
    shortest_le (by decide +kernel) hpos (hunits (Nat.le_of_lt hfinite)) (hunits hfinite) tie
  refine ⟨hdigits, Nat.lt_of_mul_lt_mul_right (Nat.lt_trans hlt ?_), hpower⟩
  decide +kernel

end Format

/-! ### Numerals that are well written -/

/-- A numeral has digits before the point, with no zero in front of others, and digits after the
    point and in the power of ten if it has these. -/
structure Numeral.WellWritten (n : Numeral) : Prop where
  whole : n.whole ≠ []
  lead : ∀ ds, n.whole = Digit.zero :: ds → ds = []
  fraction : ∀ ds ∈ n.fraction, ds ≠ []
  power : ∀ e ∈ n.exponent, e.digits ≠ []

theorem Numeral.wellWritten_ofInt (n : Int) : (Numeral.ofInt n).WellWritten where
  whole := digitsOf_ne_nil _
  lead _ h := (digitsOf_eq_zero_cons h).2
  fraction := nofun
  power := nofun

/-- An integer of 64 bits is read back as it is. -/
theorem Numeral.read?_ofInt {n : Int} (hlow : -0x8000000000000000 ≤ n)
    (hhigh : n ≤ significandLimit) : (Numeral.ofInt n).read? = some (.integer n) := by
  unfold read? ofInt
  simp only [Option.isNone_none, and_self, if_true, digitsValue_digitsOf, decide_eq_true_eq]
  split
  · rw [if_neg (by omega), show -(n.natAbs : Int) = n by omega]
  · rw [if_pos (by omega), show (n.natAbs : Int) = n by omega]

namespace Layout

variable {L : Layout} {digits : List Digit} {code : Nat}

/-- A float is written with a point or with a power of ten. -/
theorem isSome_numeralOf (L : Layout) (F : Format) (negative : Bool) (code : Nat) :
    (L.numeralOf F negative code).fraction.isSome
      ∨ (L.numeralOf F negative code).exponent.isSome := by
  unfold numeralOf
  split
  · exact .inl rfl
  · dsimp only
    split
    · exact .inl rfl
    · exact .inr rfl

/-- So it is read as a double, even where it is whole. -/
theorem read?_numeral (L : Layout) (x : Binary32) :
    (L.numeral x).read? = (L.numeral x).readDouble? := by
  refine if_neg fun ⟨hfraction, hexponent⟩ => ?_
  rw [Option.isNone_iff_eq_none] at hfraction hexponent
  rcases L.isSome_numeralOf Format.binary32 x.negative x.code with hsome | hsome
  · rw [← numeral, hfraction] at hsome
    cases hsome
  · rw [← numeral, hexponent] at hsome
    cases hsome

/-- Digits in place are well written if no zero stands in front of them. -/
theorem wellWritten_plain (negative : Bool) (hne : digits ≠ [])
    (hlead : ∀ ds, digits ≠ Digit.zero :: ds) (power : Int) :
    (plain negative digits power).WellWritten := by
  obtain ⟨d, ds, rfl⟩ := List.exists_cons_of_ne_nil hne
  have hd : d ≠ Digit.zero := fun h => hlead ds (h ▸ rfl)
  by_cases hpower : 0 ≤ power
  · refine ⟨?_, ?_, ?_, nofun⟩
    · simp [plain, hpower]
    · simp [plain, hpower, hd]
    · simp [plain, hpower]
  · by_cases hlength : (-power).toNat < (d :: ds).length
    · -- The point stands between digits, so that there are some on both sides.
      obtain ⟨k, hk⟩ := Nat.exists_eq_add_of_lt hlength
      have hwhole : (plain negative (d :: ds) power).whole = d :: ds.take k := by
        have htake : (d :: ds).length - (-power).toNat = k + 1 := by omega
        simp only [plain, if_neg hpower, if_pos hlength, htake, List.take_succ_cons]
      refine ⟨?_, ?_, ?_, nofun⟩
      · simp [hwhole]
      · simp [hwhole, hd]
      · rintro _ ⟨⟩
        simp only [if_neg hpower, if_pos hlength, ne_eq, List.drop_eq_nil_iff]
        omega
    · refine ⟨?_, ?_, ?_, nofun⟩
      · simp only [plain, if_neg hpower, if_neg hlength]
        simp
      · simp only [plain, if_neg hpower, if_neg hlength]
        simp
      · rintro _ ⟨⟩
        simp only [if_neg hpower, if_neg hlength]
        simp

/-- Digits with a power of ten are well written. -/
theorem wellWritten_scientific (L : Layout) (negative : Bool) (hne : digits ≠ [])
    (exponent : Int) : (L.scientific negative digits exponent).WellWritten := by
  obtain ⟨d, ds, rfl⟩ := List.exists_cons_of_ne_nil hne
  refine ⟨List.cons_ne_nil _ _, fun ds' h => (List.cons.inj h).2.symm, ?_, ?_⟩
  · simp only [scientific]
    cases ds <;> simp
  · rintro _ ⟨⟩
    exact digitsOf_ne_nil _

/-- In place a float has as many digits before the point as its power of ten says. -/
theorem length_whole_plain (negative : Bool) (power : Int) :
    (plain negative digits power).whole.length ≤ max 1 (power + digits.length).toNat := by
  simp only [plain]
  split
  · rw [List.length_append, List.length_replicate]
    omega
  · split
    · rw [List.length_take]
      omega
    · exact Nat.le_max_left _ _

/-- The digits of a finite float other than zero: there are some, less than a hundred, with no zero
    in front. -/
theorem digits_shortest (hpos : 0 < code) (hfinite : code < Format.binary32.infinity) (tie : Tie) :
    (∀ ds, digitsOf (Format.binary32.shortest tie code).digits ≠ Digit.zero :: ds)
      ∧ (digitsOf (Format.binary32.shortest tie code).digits).length ≤ 100 := by
  obtain ⟨hdigits, hlt, -⟩ := Format.shortest_binary32 hpos hfinite tie
  refine ⟨fun ds h => ?_, length_digitsOf_le hlt⟩
  exact absurd (digitsOf_eq_zero_cons h).1 (Nat.ne_of_gt hdigits)

section Finite

variable {x : Binary32} (hx : x.isFinite = true)
include hx

/-- The numeral of a finite float is well written. -/
theorem wellWritten_numeral (L : Layout) : (L.numeral x).WellWritten := by
  have hfinite : x.code < Format.binary32.infinity := of_decide_eq_true hx
  unfold numeral numeralOf
  split
  · exact ⟨nofun, fun ds h => (List.cons.inj h).2.symm, by rintro _ ⟨⟩; exact nofun, nofun⟩
  · rename_i hcode
    obtain ⟨hlead, -⟩ := digits_shortest (Nat.pos_of_ne_zero hcode) hfinite L.tie
    dsimp only
    split
    · exact wellWritten_plain _ (digitsOf_ne_nil _) hlead _
    · exact wellWritten_scientific L _ (digitsOf_ne_nil _) _

/-- The numeral of a finite float in JSON text stands for a double. -/
theorem isSome_read?_numeral : (json.numeral x).read?.isSome := by
  have hfinite : x.code < Format.binary32.infinity := of_decide_eq_true hx
  -- The digits before the point are few, whether the numeral is plain or has a power of ten.
  rw [read?_numeral]
  unfold numeral numeralOf
  split
  · exact Numeral.isSome_readDouble? (Nat.le_trans (length_whole_plain _ _) (by decide)) nofun
  · rename_i hcode
    have hpos := Nat.pos_of_ne_zero hcode
    obtain ⟨-, hlength⟩ := digits_shortest hpos hfinite json.tie
    obtain ⟨-, -, hlow, hhigh⟩ := Format.shortest_binary32 hpos hfinite json.tie
    dsimp only
    split
    · rename_i hplain
      refine Numeral.isSome_readDouble? (Nat.le_trans (length_whole_plain _ _) ?_) nofun
      have hgreatest : json.greatestPlain = 12 := rfl
      omega
    · refine Numeral.isSome_readDouble? ?_ ?_
      · exact Nat.le_trans (List.length_take_le _ _) (by decide)
      · rintro _ ⟨⟩
        rw [digitsValue_digitsOf]
        omega

end Finite

end Layout

end MaterialNet
