import ShaderEffect.Number.Single

/-!
# Shortest decimals

The shortest decimal of a float is the coarsest decimal grid point that rounds back to it, the one
nearest to the exact value if the grid offers two. It is written positionally, without exponent.
-/

namespace ShaderEffect

/-- A positive value `digits * 10 ^ exponent`. -/
structure Decimal where
  digits : Nat
  exponent : Int
deriving DecidableEq

namespace Decimal

/-- The reals that round to a float, and its value, all in the unit `2 ^ unit`. The ends belong
to the interval if `closed` holds. -/
structure Interval where
  low : Nat
  value : Nat
  high : Nat
  unit : Int
  closed : Bool

/-- The rounding interval of a finite positive float. Below a power of two the neighbour is nearer,
so the lower half-gap is half as wide. -/
def Interval.ofSingle (x : Single) : Interval where
  low := 4 * x.significand - (if x.fraction = 0 ∧ 1 < x.exponent then 1 else 2)
  value := 4 * x.significand
  high := 4 * x.significand + 2
  unit := (x.scale : Int) - 152
  closed := x.significand % 2 == 0

/-- Bring a value in units of `2 ^ unit` and the grid step `10 ^ exponent` to a common unit: the
factor of the value and the length of the step. -/
def commonUnit (unit exponent : Int) : Nat × Nat :=
  (2 ^ unit.toNat * 10 ^ (-exponent).toNat, 2 ^ (-unit).toNat * 10 ^ exponent.toNat)

/-- The grid point of step `10 ^ exponent` in the interval that is nearest to the value; of two
equally near ones the upper. -/
def nearestOnGrid (i : Interval) (exponent : Int) : Option Nat :=
  let (factor, step) := commonUnit i.unit exponent
  let inside (n : Nat) : Bool :=
    if i.closed then i.low * factor ≤ n * step && n * step ≤ i.high * factor
    else i.low * factor < n * step && n * step < i.high * factor
  let below := i.value * factor / step
  let above := below + 1
  match inside below, inside above with
  | false, false => none
  | true, false => some below
  | false, true => some above
  | true, true =>
    if i.value * factor - below * step < above * step - i.value * factor then some below
    else some above

/-- Search the grids from coarse to fine, starting at `10 ^ exponent`. -/
def searchGrids (i : Interval) : Nat → Int → Decimal
  | 0, exponent => ⟨0, exponent⟩
  | fuel + 1, exponent =>
    match nearestOnGrid i exponent with
    | some n => ⟨n, exponent⟩
    | none => searchGrids i fuel (exponent - 1)

/-- The shortest decimal of a finite positive float; its leading digit stands between `10 ^ 38` and
`10 ^ -45`. -/
def shortest (x : Single) : Decimal := searchGrids (.ofSingle x) 100 39

/-- Write a positive decimal positionally. -/
def positional (d : Decimal) : String :=
  let digits := Nat.toDigits 10 d.digits
  if 0 ≤ d.exponent then String.ofList (digits ++ List.replicate d.exponent.toNat '0')
  else
    let places := (-d.exponent).toNat
    let padded := List.replicate (places + 1 - digits.length) '0' ++ digits
    let whole := padded.length - places
    String.ofList (padded.take whole ++ '.' :: padded.drop whole)

/-- The text of a float: its shortest decimal, or the name of the special value. -/
def text (x : Single) : String :=
  if x.isNaN then "NaN"
  else
    let sign := if x.isNegative then "-" else ""
    if !x.isFinite then sign ++ "inf"
    else if x.isZero then sign ++ "0"
    else sign ++ (shortest x).positional

end Decimal

end ShaderEffect
