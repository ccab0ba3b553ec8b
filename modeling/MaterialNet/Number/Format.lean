namespace MaterialNet

/-!
# Binary floating-point formats — magnitudes as codes

A format lists its non-negative numbers in increasing order and numbers them `0, 1, 2, …`; that
number is the *code*, and it is the bit pattern of the magnitude.  `units` gives the value of a
code as a multiple of the format's least positive number, so comparing and rounding is done on
natural numbers, without any rounding on the way.

* `Format.units` — the exact value of a code
* `Format.ofRatio` — the code nearest to a quotient, an exact half going to the even code
* `Format.mul`, `Format.div` — correctly rounded product and quotient of two codes
-/

/-- A binary format. `fractionBits` is the width of the stored fraction, `least` the power of two
    by which its smallest positive number is below one, and `exponents` the number of exponent
    fields that stand for finite numbers.  In decimals, no number needs digits beyond
    `10 ^ -places` to be told from its neighbours, and every finite one is below `10 ^ digits`. -/
structure Format where
  fractionBits : Nat
  least : Nat
  exponents : Nat
  places : Nat
  digits : Nat
deriving DecidableEq, Repr

namespace Format

/-- Single precision: 24 significant bits, the least positive number is `2 ^ -149`, and nine digits
    of that number reach to `10 ^ -54`. -/
def binary32 : Format := ⟨23, 149, 255, 54, 39⟩

/-- Double precision: 53 significant bits, the least positive number is `2 ^ -1074`, and seventeen
    digits of that number reach to `10 ^ -341`. -/
def binary64 : Format := ⟨52, 1074, 2047, 341, 309⟩

/-! ### Codes and their values -/

/-- The number of codes with one exponent field. -/
def fieldSize (F : Format) : Nat := Nat.pow 2 F.fractionBits

/-- The number one as a multiple of the least positive number. -/
def scale (F : Format) : Nat := Nat.pow 2 F.least

/-- The code of infinity, the first one that is not a finite number. -/
def infinity (F : Format) : Nat := F.exponents * F.fieldSize

/-- The value of a code as a multiple of `2 ^ -least`.  The codes of the first block are their
    own value; each later block has twice the spacing of the one before.  Infinity gets the value
    that the next finite number would have. -/
def units (F : Format) (code : Nat) : Nat :=
  let field := code / F.fieldSize
  if field = 0 then code
  else (F.fieldSize + code % F.fieldSize) * Nat.pow 2 (field - 1)

/-! ### Rounding a quotient -/

/-- The quotient `num / den` rounded to a natural number, a half going to the even one. -/
def roundHalfEven (num den : Nat) : Nat :=
  let q := num / den
  let r := num % den
  if 2 * r < den then q
  else if 2 * r = den then q + q % 2
  else q + 1

/-- The block of codes in which `num` lies, for `num` in units of `2 ^ -least / den`: the least
    `b` such that `num / den` is below `2 ^ (fractionBits + 1 + b)`. -/
def block (F : Format) (num den : Nat) : Nat :=
  (num / den).log2 - F.fractionBits

/-- The code nearest to `num / den`, a tie going to the even code, and infinity for a quotient
    that rounds beyond the finite numbers.  In block `b` the codes are `2 ^ b` units apart, and a
    significand that rounds up to the next power of two carries into the next block by itself. -/
def ofRatio (F : Format) (num den : Nat) : Nat :=
  let scaled := num * F.scale
  let b := F.block scaled den
  -- A code of block `b` is its significand plus `b * fieldSize`.
  min F.infinity (b * F.fieldSize + roundHalfEven scaled (den * Nat.pow 2 b))

/-- The code nearest to a natural number. -/
def ofNat (F : Format) (n : Nat) : Nat := F.ofRatio n 1

/-! ### Arithmetic on codes -/

/-- The correctly rounded product of two finite codes. -/
def mul (F : Format) (a b : Nat) : Nat :=
  F.ofRatio (F.units a * F.units b) (F.scale * F.scale)

/-- The correctly rounded quotient of two finite codes, the second not zero. -/
def div (F : Format) (a b : Nat) : Nat :=
  F.ofRatio (F.units a) (F.units b)

/-- The code of one format nearest to the value of a code of another, infinity staying
    infinite. -/
def convert (F G : Format) (code : Nat) : Nat :=
  if code < F.infinity then G.ofRatio (F.units code) F.scale else G.infinity

end Format

end MaterialNet
