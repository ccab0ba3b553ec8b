import MaterialNet.Number.Binary32
import MaterialNet.Number.Numeral

namespace MaterialNet

/-!
# Reading numerals — which number a numeral stands for

A numeral without point and power of ten is an integer if it fits 64 bits.  Every other numeral is
a double: its digits are gathered in a 64-bit significand for as long as they fit, and the
significand is then scaled by a power of ten in double precision, so the double is not always the
nearest one.

* `Significand` — the gathered digits and the power of ten that belongs to them
* `scale?` — the scaling in double precision, which refuses to overflow
* `Numeral.read?` — the number of a numeral
* `Reading.toBinary32` — that number as a single-precision float
-/

/-- The number of a numeral: an integer of 64 bits, or a double given by its sign and its
    magnitude code. -/
inductive Reading where
  | integer (n : Int)
  | double (negative : Bool) (code : Nat)
deriving DecidableEq, Repr

/-! ### Gathering digits -/

/-- The greatest significand. -/
def significandLimit : Nat := 0xffffffffffffffff

/-- Digits gathered so far: the number is `value * 10 ^ power`.  `full` is set once a digit after
    the point has not fitted. -/
structure Significand where
  value : Nat
  power : Int
  full : Bool
deriving DecidableEq, Repr

namespace Significand

/-- A digit before the point is appended while it fits and all before it have fitted; each one
    that is left out raises the power. -/
def wholeDigit (s : Significand) (d : Digit) : Significand :=
  if s.power = 0 ∧ 10 * s.value + d.val ≤ significandLimit then
    { s with value := 10 * s.value + d.val }
  else { s with power := s.power + 1 }

/-- A digit after the point is appended while it fits, which lowers the power; from the first one
    that does not fit on, the digits have no effect. -/
def fractionDigit (s : Significand) (d : Digit) : Significand :=
  if s.full then s
  else if 10 * s.value + d.val ≤ significandLimit then
    { s with value := 10 * s.value + d.val, power := s.power - 1 }
  else { s with full := true }

/-- The significand of a numeral without its power of ten. -/
def ofDigits (whole fraction : List Digit) : Significand :=
  fraction.foldl fractionDigit (whole.foldl wholeDigit ⟨0, 0, false⟩)

end Significand

/-! ### The power of ten -/

/-- The greatest power of ten that is written out; a larger one is out of bounds. -/
def exponentLimit : Nat := 0x7fffffff

/-- The value of an exponent, without its sign, if it is in bounds. -/
def Exponent.magnitude? (e : Exponent) : Option Nat :=
  let n := digitsValue e.digits
  if n ≤ exponentLimit then some n else none

/-- A power of ten kept within 32 bits. -/
def saturate (power : Int) : Int := max (-0x80000000) (min power exponentLimit)

/-! ### Scaling in double precision -/

/-- The double nearest to `10 ^ n`. -/
def powerOfTen (n : Nat) : Nat := Format.binary64.ofNat (Nat.pow 10 n)

/-- Divides a double by `10 ^ n`, by `10 ^ 308` as often as it takes; the quotients of a huge `n`
    reach zero and stay there. -/
def divideByPower (code n : Nat) : Nat :=
  if n ≤ 308 then Format.binary64.div code (powerOfTen n)
  else if code = 0 then 0
  else divideByPower (Format.binary64.div code (powerOfTen 308)) (n - 308)
termination_by n

/-- A significand times a power of ten, as a double; `none` if that is beyond the doubles. -/
def scale? (value : Nat) (power : Int) : Option Nat :=
  let F := Format.binary64
  let code := F.ofNat value
  if power < 0 then some (divideByPower code power.natAbs)
  else if power ≤ 308 then
    let product := F.mul code (powerOfTen power.toNat)
    if product < F.infinity then some product else none
  else if code = 0 then some 0
  else none

/-! ### Numerals -/

namespace Numeral

/-- The number of a numeral with a point or a power of ten, or of an integer too long for 64
    bits. -/
def readDouble? (n : Numeral) : Option Reading :=
  let s := Significand.ofDigits n.whole (n.fraction.getD [])
  let magnitude : Option Nat :=
    match n.exponent with
    | none => scale? s.value s.power
    | some e =>
      match e.magnitude? with
      | some m => scale? s.value (saturate (if e.sign = .minus then s.power - m else s.power + m))
      | none => if s.value ≠ 0 ∧ e.sign ≠ .minus then none else some 0
  magnitude.map (Reading.double n.negative)

/-- The number of a numeral, or `none` if it is out of range.  The negative zero is a double, and
    so is an integer below `-2 ^ 63` or above `2 ^ 64 - 1`. -/
def read? (n : Numeral) : Option Reading :=
  if n.fraction.isNone ∧ n.exponent.isNone then
    let v := digitsValue n.whole
    if n.negative then
      if v = 0 ∨ 0x8000000000000000 < v then n.readDouble? else some (.integer (-v))
    else if v ≤ significandLimit then some (.integer v) else n.readDouble?
  else n.readDouble?

end Numeral

/-! ### The number as a value -/

/-- The single-precision float nearest to the number; a double beyond single precision becomes
    infinite. -/
def Reading.toBinary32 : Reading → Binary32
  | .integer n => Binary32.ofInt n
  | .double negative code =>
    Binary32.ofCode negative (Format.binary64.convert Format.binary32 code)

/-- The number as an integer between two bounds; a double is none, not even a whole one. -/
def Reading.toInt? (low high : Int) : Reading → Option Int
  | .integer n => if low ≤ n ∧ n ≤ high then some n else none
  | .double _ _ => none

end MaterialNet
