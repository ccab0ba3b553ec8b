import Mathlib.Algebra.Order.Field.Rat
import Mathlib.Algebra.Order.Ring.Abs
import Mathlib.Tactic.FieldSimp
import Mathlib.Tactic.Linarith
import Mathlib.Tactic.NormNum
import MaterialNet.Proofs.Legible
import MaterialNet.Proofs.Places
import MaterialNet.Proofs.Printing
import MaterialNet.Proofs.Shortest

namespace MaterialNet

/-!
# Literals carry their values exactly

The literal of a float stands for a rational number, and among all floats there is none closer to
this number than the one that was written; of two that are equally close it is the even one.  So a
reader of the literal that rounds correctly comes back to the same float, and two constants of one
type that are not the same have different literals.

* `Binary32.Nearest` — the float that a number is rounded to
* `Binary32.nearest_numeral` — the number of a float's numeral is rounded to the float
* `floatLiteral?`, `integerLiteral?` — the literals of the shader language and what they say
* `Constant.WrittenAs` — a text says exactly what a constant is
* `Constant.exact_literal` — the literals of constants
-/

/-! ### Values -/

/-- The value of a magnitude code. Infinity has the value that the next finite number would have. -/
def Format.value (F : Format) (code : Nat) : ℚ := F.units code / F.scale

/-- The value of a float that is a number. -/
def Binary32.value (x : Binary32) : ℚ :=
  (if x.negative then -1 else 1) * Format.binary32.value x.code

/-- The number that a numeral stands for. -/
def Numeral.value (n : Numeral) : ℚ :=
  (if n.negative then -1 else 1) * (n.significand * 10 ^ n.power)

/-- Rounding to nearest takes a number to this float: no other one is closer, and another one that
    is as close leaves the even one of the two.  Infinity takes part, so that a number far beyond
    the largest finite float is not rounded to it. -/
structure Binary32.Nearest (q : ℚ) (x : Binary32) : Prop where
  closest : ∀ y : Binary32, y.isNaN = false → |q - x.value| ≤ |q - y.value|
  even : ∀ y : Binary32, y.isNaN = false → y.value ≠ x.value → |q - y.value| = |q - x.value| →
    x.code % 2 = 0

namespace Format

variable {F : Format} {q : ℚ} {c i : Nat}

/-- Larger codes stand for larger values. -/
theorem value_strictMono (F : Format) : StrictMono F.value := fun _ _ h =>
  div_lt_div_of_pos_right (by exact_mod_cast F.units_strictMono h) (Nat.cast_pos.2 F.scale_pos)

/-- The code zero stands for zero. -/
theorem value_zero (F : Format) : F.value 0 = 0 := by
  simp [value, units]

/-- Codes stand for magnitudes. -/
theorem value_nonneg (F : Format) (i : Nat) : 0 ≤ F.value i :=
  F.value_zero ▸ F.value_strictMono.monotone (Nat.zero_le i)

/-- A number between the middles to the codes next to a code is closest to this code, and another
    code is as close only if the number is one of the middles. -/
theorem closest_of_middles (hlow : F.value c + F.value (c + 1) ≤ 2 * q)
    (hhigh : 2 * q ≤ F.value (c + 1) + F.value (c + 1 + 1)) (i : Nat) :
    |q - F.value (c + 1)| ≤ |q - F.value i|
      ∧ (i ≠ c + 1 → |q - F.value i| = |q - F.value (c + 1)| →
        2 * q = F.value c + F.value (c + 1) ∨ 2 * q = F.value (c + 1) + F.value (c + 1 + 1)) := by
  have hmono := F.value_strictMono
  -- Another code lies below or above, and no nearer than the neighbour on its side.
  rcases Nat.lt_trichotomy i (c + 1) with hi | rfl | hi
  · have hle : F.value i ≤ F.value c := hmono.monotone (Nat.le_of_lt_succ hi)
    have hlt : F.value c < F.value (c + 1) := hmono (Nat.lt_succ_self c)
    rw [abs_of_nonneg (a := q - F.value i) (by linarith)]
    refine ⟨abs_le.2 ⟨by linarith, by linarith⟩, fun _ heq => .inl ?_⟩
    rcases abs_cases (q - F.value (c + 1)) with ⟨h, -⟩ | ⟨h, -⟩ <;> linarith
  · exact ⟨le_refl _, fun hne => absurd rfl hne⟩
  · have hle : F.value (c + 1 + 1) ≤ F.value i := hmono.monotone hi
    have hlt : F.value (c + 1) < F.value (c + 1 + 1) := hmono (Nat.lt_succ_self _)
    rw [abs_of_nonpos (a := q - F.value i) (by linarith)]
    refine ⟨abs_le.2 ⟨by linarith, by linarith⟩, fun _ heq => .inr ?_⟩
    rcases abs_cases (q - F.value (c + 1)) with ⟨h, -⟩ | ⟨h, -⟩ <;> linarith

end Format

namespace Binary32

variable {q : ℚ} {x y : Binary32}

/-- From a magnitude with a sign, a float of this sign is as far as the magnitudes are from one
    another, and a float of the other sign is farther than zero. -/
theorem abs_sub_value (hq : 0 ≤ q) (x y : Binary32) :
    |(if x.negative then -1 else 1) * q - y.value| = |q - Format.binary32.value y.code|
        ∧ (y.code = x.code → y.value = x.value)
      ∨ |(if x.negative then -1 else 1) * q - y.value| = q + Format.binary32.value y.code := by
  have hnonneg := Format.binary32.value_nonneg y.code
  unfold value
  -- With one sign the distances are those of the magnitudes; with two, zero lies between.
  cases hx : x.negative <;> cases hy : y.negative
  · exact .inl ⟨by simp, fun h => by simp [h]⟩
  · right
    simp only [Bool.false_eq_true, if_false, if_true, one_mul, neg_mul, sub_neg_eq_add]
    exact abs_of_nonneg (by linarith)
  · right
    simp only [Bool.false_eq_true, if_false, if_true, one_mul, neg_mul]
    rw [abs_of_nonpos (by linarith)]
    ring
  · left
    refine ⟨?_, fun h => by simp [h]⟩
    rw [if_pos rfl, ← mul_sub, abs_mul, abs_neg, abs_one, one_mul]

/-- A magnitude is rounded without regard to its sign. -/
theorem nearest_of_magnitude (hq : 0 ≤ q)
    (hclosest : ∀ i, |q - Format.binary32.value x.code| ≤ |q - Format.binary32.value i|)
    (heven : ∀ i, i ≠ x.code →
      |q - Format.binary32.value i| = |q - Format.binary32.value x.code| → x.code % 2 = 0) :
    Nearest ((if x.negative then -1 else 1) * q) x := by
  set v := Format.binary32.value with hv
  have hzero : |q - v 0| = q := by rw [hv, Format.value_zero, sub_zero, abs_of_nonneg hq]
  have hle : |q - v x.code| ≤ q := (hclosest 0).trans_eq hzero
  have hself : |(if x.negative then -1 else 1) * q - x.value| = |q - v x.code| := by
    unfold value
    split
    · rw [← mul_sub, abs_mul, abs_neg, abs_one, one_mul]
    · rw [← mul_sub, one_mul]
  constructor
  · intro y _
    rw [hself]
    rcases abs_sub_value hq x y with ⟨h, -⟩ | h
    · exact h ▸ hclosest y.code
    · rw [h]
      exact hle.trans (le_add_of_nonneg_right (Format.value_nonneg _ _))
  · intro y _ hne heq
    rw [hself] at heq
    rcases abs_sub_value hq x y with ⟨h, hcode⟩ | h
    · exact heven y.code (fun hc => hne (hcode hc)) (h ▸ heq)
    · -- Then both floats are as close as zero.
      rw [h] at heq
      have hnonneg := Format.binary32.value_nonneg y.code
      have hsame : |q - v 0| = |q - v x.code| := by linarith
      rcases Nat.eq_zero_or_pos x.code with hx | hx
      · rw [hx]
      · exact heven 0 (Nat.ne_of_lt hx) hsame

/-- A number as far from one end as from the other is closer to whatever lies between them. -/
theorem abs_sub_lt_of_between {a b c : ℚ} (hab : a < b) (hbc : b < c) (h : |q - a| = |q - c|) :
    |q - b| < |q - a| := by
  rcases abs_cases (q - a) with ⟨ha, ha'⟩ | ⟨ha, ha'⟩ <;>
    rcases abs_cases (q - c) with ⟨hc, hc'⟩ | ⟨hc, hc'⟩ <;>
    exact abs_lt.2 ⟨by linarith, by linarith⟩

/-- A number is rounded to no more than one float of each sign. -/
theorem Nearest.unique (h : Nearest q x) (h' : Nearest q y) (hx : x.isNaN = false)
    (hy : y.isNaN = false) (hsign : x.negative = y.negative) : x = y := by
  have hmono := Format.binary32.value_strictMono
  have hsame := le_antisymm (h.closest y hy) (h'.closest x hx)
  by_cases hcode : x.code = y.code
  · rw [← ofCode_negative_code x, ← ofCode_negative_code y, hsign, hcode]
  have hvalue : y.value ≠ x.value := by
    rw [value, value, hsign]
    have hne := hmono.injective.ne (Ne.symm hcode)
    split
    · simpa using hne
    · simpa using hne
  have hxeven := h.even y hy hvalue hsame.symm
  have hyeven := h'.even x hx hvalue.symm hsame
  exfalso
  wlog hlt : x.code < y.code generalizing x y
  · exact this h' h hy hx hsign.symm hsame.symm (Ne.symm hcode) hvalue.symm hyeven hxeven (by omega)
  -- Even codes are not neighbours, and the code between them is closer to the number.
  have hbound := y.code_lt
  obtain ⟨z, hz, hzsign⟩ : ∃ z : Binary32, z.code = x.code + 1 ∧ z.negative = x.negative :=
    ⟨ofCode x.negative (x.code + 1), code_ofCode _ (by omega), negative_ofCode _ (by omega)⟩
  have hzNaN : z.isNaN = false := by
    simp only [isNaN, decide_eq_false_iff_not] at hy ⊢
    omega
  have hclosest := h.closest z hzNaN
  have hxz : Format.binary32.value x.code < Format.binary32.value z.code := hmono (by omega)
  have hzy : Format.binary32.value z.code < Format.binary32.value y.code := hmono (by omega)
  simp only [value, hzsign, ← hsign] at hclosest hsame
  cases hneg : x.negative <;>
    simp only [hneg, if_true, Bool.false_eq_true, if_false, one_mul, neg_mul] at hclosest hsame
  · exact absurd hclosest (not_le.2 (abs_sub_lt_of_between hxz hzy hsame))
  · have := abs_sub_lt_of_between (neg_lt_neg hzy) (neg_lt_neg hxz) hsame.symm
    exact absurd (hsame ▸ hclosest) (not_le.2 this)

end Binary32

/-! ### The literal of a float -/

namespace Format

/-- The shortest decimal of a float lies between the middles to the floats next to it.  It is such a
    middle only for an even code. -/
theorem middles_of_shortest {c : Nat} (hfinite : c + 1 < binary32.infinity) (tie : Tie) :
    let d := binary32.shortest tie (c + 1)
    let q : ℚ := d.digits * 10 ^ d.power
    let low := binary32.value c + binary32.value (c + 1)
    let high := binary32.value (c + 1) + binary32.value (c + 1 + 1)
    low ≤ 2 * q ∧ 2 * q ≤ high ∧ (2 * q = low ∨ 2 * q = high → (c + 1) % 2 = 0) := by
  intro d q low high
  obtain ⟨digits, k, hshortest, -, hpoint, -⟩ := shortest_chosen hfinite tie
  have hbounds := Interval.bounds_of_contains hpoint.contains
  have hends := Interval.closed_of_contains hpoint.contains
  rw [interval_succ] at hbounds hends
  simp only [decide_eq_true_eq] at hbounds hends
  -- All three are multiples of one unit.
  have hvalue (i j : Nat) : binary32.value i + binary32.value j
      = (((binary32.units i + binary32.units j) * 10 ^ 54 : ℕ) : ℚ) / (2 ^ 149 * 10 ^ 54) := by
    have hscale : (binary32.scale : ℚ) = 2 ^ 149 := by norm_num [scale, binary32]
    rw [value, value, hscale, Nat.cast_mul, Nat.cast_add, Nat.cast_pow, Nat.cast_ofNat,
      mul_div_mul_right _ _ (by positivity), add_div]
  have hq : 2 * q = ((digits * placeStep k : ℕ) : ℚ) / (2 ^ 149 * 10 ^ 54) := by
    have hpower : (10 : ℚ) ^ ((k : ℤ) - 54) = 10 ^ k / 10 ^ 54 := by
      rw [zpow_sub₀ (by norm_num), zpow_natCast]
      norm_num
    simp only [q, d, hshortest, hpower, placeStep]
    push_cast
    field_simp
    ring
  have hpos : (0 : ℚ) < 2 ^ 149 * 10 ^ 54 := by positivity
  simp only [low, high]
  rw [hq, hvalue, hvalue]
  generalize (2 ^ 149 * 10 ^ 54 : ℚ) = S at hpos
  refine ⟨?_, ?_, fun h => hends ?_⟩
  · exact div_le_div_of_nonneg_right (Nat.cast_le.2 hbounds.1) hpos.le
  · exact div_le_div_of_nonneg_right (Nat.cast_le.2 hbounds.2) hpos.le
  · rw [div_left_inj' hpos.ne', div_left_inj' hpos.ne', Nat.cast_inj, Nat.cast_inj] at h
    exact h

end Format

/-- The numeral of a float stands for its shortest decimal. -/
theorem Layout.magnitude_numeralOf (L : Layout) (F : Format) (negative : Bool) {code : Nat}
    (hsign : L.positiveSign ≠ .minus) (hcode : code ≠ 0) :
    ((L.numeralOf F negative code).significand : ℚ) * 10 ^ (L.numeralOf F negative code).power
      = (F.shortest L.tie code).digits * 10 ^ (F.shortest L.tie code).power := by
  rcases L.decimal_numeralOf F negative hsign hcode with
    ⟨hdigits, hpower⟩ | ⟨hnonneg, -, hdigits, hpower⟩
  · rw [hdigits, hpower]
  · have hpower' : ((F.shortest L.tie code).power.toNat : Int) = (F.shortest L.tie code).power :=
      Int.toNat_of_nonneg hnonneg
    conv_rhs => rw [← hpower', zpow_natCast]
    rw [hdigits, hpower, Nat.cast_mul, Nat.cast_pow, Nat.cast_ofNat, pow_succ]
    field_simp

namespace Binary32

variable {x : Binary32} {s : String}

/-- The numeral of a finite float is rounded to the float. -/
theorem nearest_numeral (hx : x.isFinite = true) : Nearest (Layout.shader.numeral x).value x := by
  have hfinite : x.code < Format.binary32.infinity := of_decide_eq_true hx
  rw [Numeral.value, Layout.numeral, Layout.negative_numeralOf, ← Layout.numeral]
  -- Zero has its own numeral; any other float is chosen between the middles to its neighbours.
  rcases hcode : x.code with - | c
  · have hzero : (Layout.shader.numeral x).significand = 0 := by
      rw [Layout.numeral, Layout.numeralOf, if_pos hcode,
        (Layout.decimal_plain_of_nonneg x.negative (Int.le_refl 0)).1]
      rfl
    rw [hzero, Nat.cast_zero, zero_mul]
    refine nearest_of_magnitude (le_refl 0) (fun i => ?_) fun i _ _ => by rw [hcode]
    rw [hcode, Format.value_zero, sub_zero, abs_zero]
    exact abs_nonneg _
  · have hmiddles := Format.middles_of_shortest (hcode ▸ hfinite) Layout.shader.tie
    have hclosest := Format.closest_of_middles hmiddles.1 hmiddles.2.1
    have hmagnitude := Layout.shader.magnitude_numeralOf Format.binary32 x.negative
      (by decide) (show x.code ≠ 0 by omega)
    rw [← hcode] at hmiddles hclosest
    rw [Layout.numeral, hmagnitude]
    exact nearest_of_magnitude (mul_nonneg (Nat.cast_nonneg _) (zpow_nonneg (by norm_num) _))
      (fun i => (hclosest i).1)
      fun i hi heq => hmiddles.2.2 ((hclosest i).2 hi heq)

end Binary32

/-! ### Reading literals -/

/-- The point and the digits after it, if there is a point. -/
def readPoint : List Char → Option (List Digit) × List Char
  | '.' :: rest =>
    let (ds, rest) := Json.readDigits rest
    (some ds, rest)
  | cs => (none, cs)

/-- A floating constant of the shader language: digits with a point or a power of ten or both. -/
def floatConstant? (cs : List Char) : Option Numeral :=
  let (whole, cs) := Json.readDigits cs
  let (fraction, cs) := readPoint cs
  match Json.readExponent? cs with
  | some (exponent, []) =>
    if (whole ≠ [] ∨ fraction.getD [] ≠ []) ∧ (fraction.isSome ∨ exponent.isSome) then
      some ⟨false, whole, fraction, exponent⟩
    else none
  | _ => none

/-- A float literal: a floating constant, with a minus in front if it is negative. -/
def floatLiteral? (text : String) : Option Numeral :=
  let (negative, cs) := Json.readMinus text.toList
  (floatConstant? cs).map fun n => { n with negative }

/-- An integer literal: digits without a leading zero, with a minus in front if it is negative. -/
def integerLiteral? (text : String) : Option Int :=
  let (negative, cs) := Json.readMinus text.toList
  match Json.readWhole? cs with
  | some (digits, []) => some (if negative then -digitsValue digits else digitsValue digits)
  | _ => none

/-- The digits behind a point are read back, up to what is no digit. -/
theorem readPoint_chars {fraction : Option (List Digit)} {rest : List Char}
    (h : ∀ c ∈ rest.head?, Digit.ofChar? c = none ∧ c ≠ '.') :
    readPoint (Json.fractionChars fraction ++ rest) = (fraction, rest) := by
  cases fraction with
  | none =>
    rw [Json.fractionChars, List.nil_append]
    unfold readPoint
    split
    · exact absurd rfl (h '.' rfl).2
    · rfl
  | some ds =>
    rw [Json.fractionChars, List.cons_append, readPoint,
      Json.readDigits_digits _ fun c hc => (h c hc).1]

/-- A numeral with a point or a power of ten is a float literal. -/
theorem floatLiteral?_text {n : Numeral} (hn : n.WellWritten)
    (hpoint : n.fraction.isSome ∨ n.exponent.isSome) : floatLiteral? n.text = some n := by
  -- The mark of the power of ten is no digit, so the digits before it end there.
  have hexponent :
      ∀ c ∈ (Json.exponentChars n.exponent).head?, Digit.ofChar? c = none ∧ c ≠ '.' := by
    cases n.exponent with
    | none => exact nofun
    | some e =>
      rintro c ⟨⟩
      decide
  have hfraction : ∀ c ∈ (Json.fractionChars n.fraction ++ Json.exponentChars n.exponent).head?,
      Digit.ofChar? c = none := by
    cases n.fraction with
    | none => exact fun c hc => (hexponent c hc).1
    | some ds =>
      rintro c ⟨⟩
      decide
  have hread := Json.readExponent?_chars hn.power (show Json.EndsNumber [] from nofun)
  rw [List.append_nil] at hread
  rw [floatLiteral?, Numeral.text, String.toList_ofList, Json.chars_eq,
    Json.readMinus_digits _ hn.whole]
  simp only [floatConstant?, Json.readDigits_digits _ hfraction, readPoint_chars hexponent, hread,
    hn.whole, hpoint, ne_eq, not_false_eq_true, true_or, and_self, if_true, Option.map_some]

/-- The text of an integer is read back as this integer. -/
theorem integerLiteral?_text (n : Int) : integerLiteral? (Numeral.ofInt n).text = some n := by
  have hn := Numeral.wellWritten_ofInt n
  have hminus := @Json.readMinus_digits [] (Numeral.ofInt n).negative _ hn.whole
  have hwhole := @Json.readWhole?_digits [] _ hn.whole hn.lead nofun
  have hchars : (Numeral.ofInt n).chars = (if (Numeral.ofInt n).negative then ['-'] else [])
      ++ ((Numeral.ofInt n).whole.map Digit.char ++ []) := by
    rw [Json.chars_eq]
    rfl
  rw [integerLiteral?, Numeral.text, String.toList_ofList, hchars, hminus]
  simp only [hwhole, Option.some.injEq]
  simp only [Numeral.ofInt, digitsValue_digitsOf, decide_eq_true_eq]
  split <;> omega

/-! ### Literals of floats -/

/-- A text is a float literal, the number of the literal is rounded to the float, and the literal
    has the sign of the float. -/
structure Binary32.WrittenAs (x : Binary32) (s : String) : Prop where
  reads : ∃ n, floatLiteral? s = some n ∧ Binary32.Nearest n.value x ∧ n.negative = x.negative

namespace Binary32

variable {x y : Binary32} {s : String}

/-- A finite float is a number. -/
theorem isNaN_of_isFinite (hx : x.isFinite = true) : x.isNaN = false :=
  decide_eq_false (Nat.not_lt.2 (Nat.le_of_lt (of_decide_eq_true hx)))

/-- A finite float is written as a literal whose value it is nearest to. -/
theorem writtenAs_shaderText (hx : x.isFinite = true) : x.WrittenAs x.shaderText := by
  have hliteral : floatLiteral? (Layout.shader.numeral x).text = some (Layout.shader.numeral x) :=
    floatLiteral?_text (Layout.wellWritten_numeral hx _) (Layout.isSome_numeralOf ..)
  rw [shaderText_of_isFinite hx]
  exact ⟨_, hliteral, nearest_numeral hx, Layout.negative_numeralOf ..⟩

/-- A literal does not belong to two floats. -/
theorem WrittenAs.unique (h : x.WrittenAs s) (h' : y.WrittenAs s) (hx : x.isNaN = false)
    (hy : y.isNaN = false) : x = y := by
  obtain ⟨n, hn, hnearest, hsign⟩ := h.reads
  obtain ⟨n', hn', hnearest', hsign'⟩ := h'.reads
  obtain rfl := Option.some.inj (hn.symm.trans hn')
  exact hnearest.unique hnearest' hx hy (hsign.symm.trans hsign')

end Binary32

/-! ### Literals of constants -/

namespace Constant

/-- A text calls the constructor of a type with one float literal for each component. -/
structure BuiltAs (keyword : String) (components : List Binary32) (s : String) : Prop where
  reads : ∃ literals, List.Forall₂ Binary32.WrittenAs components literals
    ∧ s = keyword ++ "(" ++ ", ".intercalate literals ++ ")"

/-- A text says exactly what a constant is.  The components of a matrix are written column by
    column. -/
def WrittenAs (s : String) : Constant → Prop
  | .float x => x.WrittenAs s
  | .vec2 x y => BuiltAs "vec2" [x, y] s
  | .vec3 x y z => BuiltAs "vec3" [x, y, z] s
  | .vec4 x y z w => BuiltAs "vec4" [x, y, z, w] s
  | .integer n => integerLiteral? s = some n.toInt
  | .mat4 columns => BuiltAs "mat4" columns.toList s

variable {c c' : Constant} {t : ValueType} {xs : List Binary32}

/-- A literal with several components is built from the literals of its components. -/
theorem builtAs_constructorText (hxs : ∀ x ∈ xs, x.isFinite = true) :
    BuiltAs t.keyword xs (constructorText t xs) := by
  refine ⟨xs.map Binary32.shaderText, ?_, rfl⟩
  exact List.forall₂_map_right_iff.2
    (List.forall₂_same.2 fun x hx => Binary32.writtenAs_shaderText (hxs x hx))

/-- The text of a finite constant is a literal of its type. -/
theorem writtenAs_text (h : c.isFinite = true) : c.WrittenAs c.text := by
  have hall : ∀ x ∈ c.components, x.isFinite = true := List.all_eq_true.1 h
  cases c with
  | float x => exact Binary32.writtenAs_shaderText (hall x (List.mem_singleton_self x))
  | integer n => exact integerLiteral?_text n.toInt
  | vec2 x y => exact builtAs_constructorText (t := .vec2) hall
  | vec3 x y z => exact builtAs_constructorText (t := .vec3) hall
  | vec4 x y z w => exact builtAs_constructorText (t := .vec4) hall
  | mat4 columns => exact builtAs_constructorText (t := .mat4) hall

/-! ### Different constants have different literals -/

end Constant

/-- The term of a numeral says how the numeral is written. -/
theorem Numeral.text_eq_of_term_eq {n n' : Numeral} (h : n.term = n'.term) : n.text = n'.text := by
  have hmagnitude (hm : n.magnitude.text = n'.magnitude.text) :
      n.magnitude.chars = n'.magnitude.chars := String.ofList_injective hm
  simp only [Numeral.term] at h
  rw [Numeral.text, Numeral.text, n.chars_eq, n'.chars_eq]
  cases hn : n.negative <;> cases hn' : n'.negative <;> rw [hn, hn'] at h
  · rw [hmagnitude (Term.number.inj h)]
  · cases h
  · cases h
  · rw [hmagnitude (Term.number.inj (Term.negate.inj h))]

/-- Floats that read alike are one float, since each is the nearest to its literal. -/
theorem Binary32.eq_of_term_eq {x y : Binary32} (hx : x.isFinite = true) (hy : y.isFinite = true)
    (h : x.term = y.term) : x = y := by
  have htext : x.shaderText = y.shaderText := by
    rw [shaderText_of_isFinite hx, shaderText_of_isFinite hy]
    exact Numeral.text_eq_of_term_eq h
  have hy' := writtenAs_shaderText hy
  exact (writtenAs_shaderText hx).unique (htext ▸ hy') (isNaN_of_isFinite hx) (isNaN_of_isFinite hy)

namespace Constant

variable {c c' : Constant} {xs ys : List Binary32}

/-- The same, for several floats. -/
theorem components_eq_of_terms_eq (hxs : ∀ x ∈ xs, x.isFinite = true)
    (hys : ∀ y ∈ ys, y.isFinite = true) (h : xs.map Binary32.term = ys.map Binary32.term) :
    xs = ys := by
  induction xs generalizing ys with
  | nil => exact (List.map_eq_nil_iff.1 h.symm).symm
  | cons x xs ih =>
    obtain ⟨y, ys, rfl, hhead, htail⟩ := List.map_eq_cons_iff.1 h.symm
    obtain rfl := Binary32.eq_of_term_eq (hxs x List.mem_cons_self) (hys y List.mem_cons_self)
      hhead.symm
    rw [ih (fun x hx => hxs x (List.mem_cons_of_mem _ hx))
      (fun y hy => hys y (List.mem_cons_of_mem _ hy)) htail.symm]

/-- Constants of one type that mean the same are the same. -/
theorem eq_of_term_eq (h : c.isFinite = true) (h' : c'.isFinite = true) (htype : c'.type = c.type)
    (hterm : c'.term = c.term) : c' = c := by
  have hall : ∀ x ∈ c.components, x.isFinite = true := List.all_eq_true.1 h
  have hall' : ∀ x ∈ c'.components, x.isFinite = true := List.all_eq_true.1 h'
  have hcomponents := components_eq_of_terms_eq hall' hall
  -- Of one type, the constants have as many components, and these are read one by one.
  cases c with
  | float x =>
    cases c' with
    | float y =>
      have hxy :=
        Binary32.eq_of_term_eq (hall' y List.mem_cons_self) (hall x List.mem_cons_self) hterm
      rw [hxy]
    | _ => cases htype
  | integer n =>
    cases c' with
    | integer m =>
      have htext := congrArg integerLiteral? (Numeral.text_eq_of_term_eq hterm)
      rw [integerLiteral?_text, integerLiteral?_text, Option.some.injEq, Int32.toInt_inj] at htext
      rw [htext]
    | _ => cases htype
  | vec2 x y =>
    cases c' with
    | vec2 x' y' => simpa [components] using hcomponents (Term.call.inj hterm).2
    | _ => cases htype
  | vec3 x y z =>
    cases c' with
    | vec3 x' y' z' => simpa [components] using hcomponents (Term.call.inj hterm).2
    | _ => cases htype
  | vec4 x y z w =>
    cases c' with
    | vec4 x' y' z' w' => simpa [components] using hcomponents (Term.call.inj hterm).2
    | _ => cases htype
  | mat4 columns =>
    cases c' with
    | mat4 columns' =>
      rw [Vector.toList_inj.1 (hcomponents (Term.call.inj hterm).2)]
    | _ => cases htype

/-- The literal of a constant is read in one way only. -/
theorem term_eq_of_text_eq (h : c.isFinite = true) (h' : c'.isFinite = true)
    (htext : c'.text = c.text) : c'.term = c.term := by
  obtain ⟨ts, last, hspells, hderives, -⟩ := (Expr.legible_constant h).reads
  obtain ⟨ts', last', hspells', hderives', -⟩ := (Expr.legible_constant h').reads
  rw [Expr.text_constant] at hspells hspells'
  rw [Expr.term_constant] at hderives hderives'
  have htokens := tokens?_of_spells rfl hspells'
  rw [htext, tokens?_of_spells rfl hspells, Option.some.injEq] at htokens
  obtain rfl := htokens
  exact (Derives.sum (.product hderives')).unique (.sum (.product hderives))

/-- The literal of a finite constant says exactly what the constant is, and no other finite constant
    of its type has the same literal. -/
theorem exact_literal (h : c.isFinite = true) :
    c.WrittenAs c.text
      ∧ ∀ c', c'.isFinite = true → c'.type = c.type → c'.text = c.text → c' = c :=
  ⟨writtenAs_text h,
    fun _ h' htype htext => eq_of_term_eq h h' htype (term_eq_of_text_eq h h' htext)⟩

/-- The negative zero, `1e16`, one tenth and the least positive float. -/
theorem exact_literal_vec4 :
    let c := Constant.vec4 ⟨0x80000000⟩ ⟨0x5a0e1bca⟩ ⟨0x3dcccccd⟩ ⟨1⟩
    c.text = "vec4(-0.0, 1e16, 0.1, 1e-45)" ∧ c.WrittenAs c.text
      ∧ ∀ c', c'.isFinite = true → c'.type = .vec4 → c'.text = c.text → c' = c :=
  ⟨by decide +kernel, exact_literal (by decide +kernel)⟩

end Constant

end MaterialNet
