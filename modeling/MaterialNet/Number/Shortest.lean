import MaterialNet.Number.Format
import MaterialNet.Number.Numeral

namespace MaterialNet

/-!
# Shortest decimals — the fewest digits that read back

The numbers that round to a float form an interval around it, halfway to the next float on either
side; the ends belong to it when the float's code is even.  The decimal grids `… 100, 10, 1, 0.1 …`
are nested, so the coarsest grid with a point in the interval gives the fewest digits, and only the
two grid points next to the float have to be tried.

* `Interval` — a float's interval, in integers
* `Interval.coarsest` — the decimal on the coarsest grid that has a point in the interval
* `Format.shortest` — the digits and the power of ten for a magnitude code
-/

/-- Which of two equally near decimals is taken. -/
inductive Tie where
  /-- The larger one. -/
  | up
  /-- The one with the even last digit. -/
  | even
deriving DecidableEq, Repr

/-- The reals that round to a float, everything doubled and scaled to integers: the interval from
    `low` to `high` around `centre`, with its ends if `closed`. -/
structure Interval where
  low : Nat
  centre : Nat
  high : Nat
  closed : Bool
deriving Repr

/-- A decimal `digits * 10 ^ power`. -/
structure Decimal where
  digits : Nat
  power : Int
deriving DecidableEq, Repr

namespace Interval

/-- Whether a point lies in the interval. -/
def contains (I : Interval) (point : Nat) : Bool :=
  if I.closed then I.low ≤ point && point ≤ I.high else I.low < point && point < I.high

/-- The multiples of `step` next to the centre that lie in the interval: the nearer one if both
    do, as a number of steps. -/
def gridPoint? (I : Interval) (tie : Tie) (step : Nat) : Option Nat :=
  let below := I.centre / step
  let above := below + 1
  let belowFits := below ≠ 0 && I.contains (below * step)
  let aboveFits := I.contains (above * step)
  if belowFits && aboveFits then
    let twice := 2 * (I.centre % step)
    if twice < step then some below
    else if step < twice then some above
    else match tie with
      | .up => some above
      | .even => some (if below % 2 = 0 then below else above)
  else if belowFits then some below
  else if aboveFits then some above
  else none

/-- The point of the coarsest grid `unit * 10 ^ power` that has one in the interval, trying the
    powers from `n` down; the centre rounded down to `unit` if none has. -/
def coarsest (I : Interval) (tie : Tie) (unit : Nat) : Nat → Nat × Nat
  | 0 => ((I.gridPoint? tie unit).getD (I.centre / unit), 0)
  | n + 1 =>
    match I.gridPoint? tie (unit * Nat.pow 10 (n + 1)) with
    | some digits => (digits, n + 1)
    | none => I.coarsest tie unit n

end Interval

/-! ### The decimal of a code -/

namespace Format

/-- The interval of a finite, non-zero magnitude code, in units of half the least positive number
    times `10 ^ -places`. -/
def interval (F : Format) (code : Nat) : Interval :=
  let scale := Nat.pow 10 F.places
  { low := (F.units (code - 1) + F.units code) * scale
    centre := 2 * F.units code * scale
    high := (F.units code + F.units (code + 1)) * scale
    closed := code % 2 = 0 }

/-- The shortest decimal that reads back as the float of this magnitude code, the nearest of
    those. -/
def shortest (F : Format) (tie : Tie) (code : Nat) : Decimal :=
  let unit := Nat.pow 2 (F.least + 1)
  let (digits, power) := (F.interval code).coarsest tie unit (F.places + F.digits)
  ⟨digits, power - F.places⟩

end Format

end MaterialNet
