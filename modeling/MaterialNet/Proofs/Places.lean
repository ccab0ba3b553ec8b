import Mathlib.Data.List.Induction
import Mathlib.Tactic.Ring
import MaterialNet.Proofs.Numerals

namespace MaterialNet

/-!
# The decimal of a numeral

A numeral stands for a decimal: for its digits, taken together as a natural number, times a power of
ten that its exponent and the place of its point decide.  However the shortest decimal of a float is
laid out, it is the decimal of the numeral again; only zeros may have come to its end.

* `Numeral.significand`, `Numeral.power` — the decimal of a numeral
* `Layout.decimal_plain_of_nonneg`, `Layout.decimal_plain_of_neg`, `Layout.decimal_scientific` — the
  decimals of digits that are laid out
* `Layout.decimal_numeralOf` — the decimal of a float's numeral
-/

/-! ### Digits that are put together -/

/-- Digits in front of others count as many times more as these have places. -/
theorem digitsValue_append (xs ys : List Digit) :
    digitsValue (xs ++ ys) = digitsValue xs * 10 ^ ys.length + digitsValue ys := by
  induction ys using List.reverseRecOn with
  | nil => simp [digitsValue]
  | append_singleton ys d ih =>
    rw [← List.append_assoc, digitsValue_append_singleton, digitsValue_append_singleton, ih,
      List.length_append, List.length_singleton]
    ring

theorem digitsValue_zeros (n : Nat) : digitsValue (List.replicate n Digit.zero) = 0 := by
  induction n with
  | zero => rfl
  | succ n ih => rw [List.replicate_succ', digitsValue_append_singleton, ih]; rfl

/-- The digits are worth less than one more place would be. -/
theorem digitsValue_lt (ds : List Digit) : digitsValue ds < 10 ^ ds.length := by
  induction ds using List.reverseRecOn with
  | nil => exact Nat.one_pos
  | append_singleton ds d ih =>
    rw [digitsValue_append_singleton, List.length_append, List.length_singleton, Nat.pow_succ]
    omega

/-! ### Decimals -/

/-- The power of ten that an exponent writes. -/
def Exponent.value (e : Exponent) : Int :=
  if e.sign = .minus then -(digitsValue e.digits : Int) else digitsValue e.digits

namespace Numeral

/-- The digits of a numeral, before the point and after it, as one natural number. -/
def significand (n : Numeral) : Nat := digitsValue (n.whole ++ n.fraction.getD [])

/-- The power of ten that belongs to the significand. -/
def power (n : Numeral) : Int :=
  (n.exponent.map Exponent.value).getD 0 - (n.fraction.getD []).length

end Numeral

namespace Layout

variable {digits : List Digit} {power : Int}

/-- Digits in place have a zero after the point if they do not reach it. -/
theorem decimal_plain_of_nonneg (negative : Bool) (h : 0 ≤ power) :
    (plain negative digits power).significand = digitsValue digits * 10 ^ (power.toNat + 1)
      ∧ (plain negative digits power).power = -1 := by
  constructor
  · rw [Numeral.significand, plain]
    simp only [if_pos h, Option.getD_some, digitsValue_append, digitsValue_zeros,
      List.length_replicate, List.length_singleton]
    rw [show digitsValue [Digit.zero] = 0 from rfl]
    ring
  · rw [Numeral.power, plain]
    simp only [if_pos h]
    rfl

/-- Digits in place that reach behind the point stand for themselves. -/
theorem decimal_plain_of_neg (negative : Bool) (h : power < 0) :
    (plain negative digits power).significand = digitsValue digits
      ∧ (plain negative digits power).power = power := by
  rw [Numeral.significand, Numeral.power, plain]
  simp only [if_neg (Int.not_le.2 h), Option.getD_some, Option.map_none, Option.getD_none]
  split
  · exact ⟨by rw [List.take_append_drop], by rw [List.length_drop]; omega⟩
  · refine ⟨?_, ?_⟩
    · rw [digitsValue_append, digitsValue_append, digitsValue_zeros,
        show digitsValue [Digit.zero] = 0 from rfl]
      ring
    · rw [List.length_append, List.length_replicate]
      omega

/-- Digits with a power of ten stand for themselves, the point being after the first one. -/
theorem decimal_scientific (L : Layout) (negative : Bool) (hne : digits ≠ [])
    (hsign : L.positiveSign ≠ .minus) :
    let n := L.scientific negative digits (power + digits.length - 1)
    n.significand = digitsValue digits ∧ n.power = power := by
  intro n
  have hlength : 0 < digits.length := List.length_pos_iff.2 hne
  have hfraction : n.fraction.getD [] = digits.drop 1 := by
    simp only [n, scientific]
    split
    · rw [List.drop_of_length_le ‹_›, Option.getD_none]
    · rfl
  -- The sign that is written is that of the power.
  have hexponent : (n.exponent.map Exponent.value).getD 0 = power + digits.length - 1 := by
    simp only [n, scientific, Option.map_some, Option.getD_some, Exponent.value,
      digitsValue_digitsOf]
    by_cases hneg : power + digits.length - 1 < 0
    · rw [if_pos hneg, if_pos rfl]
      omega
    · rw [if_neg hneg, if_neg hsign]
      omega
  refine ⟨?_, ?_⟩
  · rw [Numeral.significand, hfraction]
    exact congrArg digitsValue (List.take_append_drop 1 digits)
  · rw [Numeral.power, hfraction, hexponent, List.length_drop]
    omega

/-- The numeral of a float has the sign of the float. -/
theorem negative_numeralOf (L : Layout) (F : Format) (negative : Bool) (code : Nat) :
    (L.numeralOf F negative code).negative = negative := by
  unfold numeralOf
  split
  · rfl
  · dsimp only
    split <;> rfl

/-- The numeral of a float other than zero has the digits of its shortest decimal.  Where it stands
    in place and is whole, zeros follow its digits, the last of them after the point. -/
theorem decimal_numeralOf (L : Layout) (F : Format) (negative : Bool) {code : Nat}
    (hsign : L.positiveSign ≠ .minus) (hcode : code ≠ 0) :
    let n := L.numeralOf F negative code
    let d := F.shortest L.tie code
    n.significand = d.digits ∧ n.power = d.power
      ∨ 0 ≤ d.power ∧ d.digits * 10 ^ d.power.toNat < 10 ^ (L.greatestPlain + 1).toNat
        ∧ n.significand = d.digits * 10 ^ (d.power.toNat + 1) ∧ n.power = -1 := by
  intro n d
  have hvalue : digitsValue (digitsOf d.digits) = d.digits := digitsValue_digitsOf _
  have hn : n = if L.leastPlain ≤ d.power + (digitsOf d.digits).length - 1
        ∧ d.power + (digitsOf d.digits).length - 1 ≤ L.greatestPlain
      then plain negative (digitsOf d.digits) d.power
      else L.scientific negative (digitsOf d.digits) (d.power + (digitsOf d.digits).length - 1) :=
    if_neg hcode
  rw [hn]
  split
  · rename_i hplain
    -- A natural number is written with zeros up to the point and one more behind it.
    by_cases hpower : 0 ≤ d.power
    · right
      have hdecimal := @decimal_plain_of_nonneg (digitsOf d.digits) _ negative hpower
      rw [hvalue] at hdecimal
      refine ⟨hpower, ?_, hdecimal⟩
      have hlt := digitsValue_lt (digitsOf d.digits)
      rw [hvalue] at hlt
      calc d.digits * 10 ^ d.power.toNat
          < 10 ^ (digitsOf d.digits).length * 10 ^ d.power.toNat :=
            Nat.mul_lt_mul_of_pos_right hlt (Nat.pow_pos (by decide))
        _ = 10 ^ ((digitsOf d.digits).length + d.power.toNat) := (Nat.pow_add ..).symm
        _ ≤ 10 ^ (L.greatestPlain + 1).toNat := Nat.pow_le_pow_right (by decide) (by omega)
    · have hdecimal :=
        @decimal_plain_of_neg (digitsOf d.digits) _ negative (Int.not_le.1 hpower)
      rw [hvalue] at hdecimal
      exact .inl hdecimal
  · have hne := digitsOf_ne_nil d.digits
    have hdecimal := @decimal_scientific _ d.power L negative hne hsign
    rw [hvalue] at hdecimal
    exact .inl hdecimal

end Layout

end MaterialNet
