import MaterialNet.Number.Binary32
import MaterialNet.Number.Shortest

namespace MaterialNet

/-!
# Layouts — how a float is written

Every text writes the same shortest digits of a float; texts differ only in where the digits stand
in place, in the sign of a positive power of ten, and in the choice between two equally near
decimals.  A `Layout` records these decisions and `Layout.numeralOf` obeys them.

* `Layout.shader` — floats in shader text
* `Layout.json` — floats in JSON text
* `Layout.inPlace` — floats without a power of ten
* `Layout.numeralOf`, `Layout.numeral` — the numeral of a float of any format, and of a `Binary32`
-/

/-- The decisions of a text on its floats. With the float as `d.ddd * 10 ^ e`, it stands in place
    when `leastPlain ≤ e ≤ greatestPlain` and is written with a power of ten otherwise. -/
structure Layout where
  leastPlain : Int
  greatestPlain : Int
  positiveSign : ExponentSign
  tie : Tie
deriving DecidableEq, Repr

namespace Layout

/-- Shader text has floats from `1e-4` to below `1e16` in place, writes `1e16` without a plus, and
    takes the larger of two equally near decimals. -/
def shader : Layout := ⟨-4, 15, .unsigned, .up⟩

/-- JSON text has floats from `1e-6` to below `1e13` in place, writes `1e+13` with a plus, and
    takes the even one of two equally near decimals. -/
def json : Layout := ⟨-6, 12, .plus, .even⟩

/-- Every float in place, whatever its size: the powers of ten of the doubles run from `-324` to
    `308`. -/
def inPlace : Layout := ⟨-324, 308, .unsigned, .up⟩

/-! ### Digits in place, digits with a power of ten -/

/-- The digits in place, with at least one digit on each side of the point. -/
def plain (negative : Bool) (digits : List Digit) (power : Int) : Numeral where
  negative := negative
  whole :=
    if 0 ≤ power then digits ++ List.replicate power.toNat Digit.zero
    else if (-power).toNat < digits.length then digits.take (digits.length - (-power).toNat)
    else [Digit.zero]
  fraction := some <|
    if 0 ≤ power then [Digit.zero]
    else if (-power).toNat < digits.length then digits.drop (digits.length - (-power).toNat)
    else List.replicate ((-power).toNat - digits.length) Digit.zero ++ digits
  exponent := none

/-- One digit, the others after the point if there are any, and the power of ten. -/
def scientific (L : Layout) (negative : Bool) (digits : List Digit) (exponent : Int) : Numeral where
  negative := negative
  whole := digits.take 1
  fraction := if digits.length ≤ 1 then none else some (digits.drop 1)
  exponent := some ⟨if exponent < 0 then .minus else L.positiveSign, digitsOf exponent.natAbs⟩

/-- The numeral of a sign and a finite magnitude code. -/
def numeralOf (L : Layout) (F : Format) (negative : Bool) (code : Nat) : Numeral :=
  if code = 0 then plain negative [Digit.zero] 0
  else
    let d := F.shortest L.tie code
    let digits := digitsOf d.digits
    let exponent := d.power + digits.length - 1
    if L.leastPlain ≤ exponent ∧ exponent ≤ L.greatestPlain then
      plain negative digits d.power
    else L.scientific negative digits exponent

/-- The numeral of a finite single-precision float. -/
def numeral (L : Layout) (x : Binary32) : Numeral :=
  L.numeralOf Format.binary32 x.negative x.code

end Layout

/-! ### Floats in shader text -/

/-- A float as shader text; the values without a numeral are written as words. -/
def Binary32.shaderText (x : Binary32) : String :=
  if x.isNaN then "NaN"
  else if x.isFinite then (Layout.shader.numeral x).text
  else if x.negative then "-inf" else "inf"

end MaterialNet
