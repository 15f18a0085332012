import ShaderEffect.Number.Single

/-!
# Double-precision words

Programs compute in double precision and store in single precision. Both are kept as words, so
the bits of a NaN are a matter of rule and not of the machine: an operation answers its first NaN
operand, made quiet, and an invalid operation on numbers answers the one NaN `invalid`. Only the arc
functions, outside their domain, answer another one, `outsideDomain`.
-/

namespace ShaderEffect

/-- A 64-bit IEEE 754 float, as its word. -/
structure Double where
  bits : UInt64
deriving DecidableEq, Inhabited

namespace Double

/-- Positive zero. -/
def zero : Double := ⟨0⟩

/-- Negative zero, the neutral element of addition. -/
def negativeZero : Double := ⟨0x8000000000000000⟩

/-- The number one. -/
def one : Double := ⟨0x3FF0000000000000⟩

/-- Positive infinity. -/
def infinity : Double := ⟨0x7FF0000000000000⟩

/-- Negative infinity. -/
def negativeInfinity : Double := ⟨0xFFF0000000000000⟩

/-- The NaN that an invalid operation on numbers answers. -/
def invalid : Double := ⟨0xFFF8000000000000⟩

/-- The NaN that a function answers outside its domain. -/
def outsideDomain : Double := ⟨0x7FF8000000000000⟩

/-! ### Fields -/

/-- Whether the sign bit is set. -/
def isNegative (x : Double) : Bool := x.bits >>> 63 == 1

/-- The biased exponent, between 0 and 2047. -/
def exponent (x : Double) : Nat := ((x.bits >>> 52) &&& 0x7FF).toNat

/-- The fraction field, without the hidden bit. -/
def fraction (x : Double) : Nat := (x.bits &&& 0xFFFFFFFFFFFFF).toNat

/-- Whether the word is a NaN of any sign and payload. -/
def isNaN (x : Double) : Bool := x.exponent == 2047 && x.fraction != 0

/-- Whether the value equals zero: both signed zeros do. -/
def isZero (x : Double) : Bool := x.bits &&& 0x7FFFFFFFFFFFFFFF == 0

/-- The significand with its hidden bit: a finite value is `significand * 2 ^ (scale - 1075)`. -/
def significand (x : Double) : Nat :=
  if x.exponent = 0 then x.fraction else x.fraction + 2 ^ 52

/-- The exponent that goes with `significand`. -/
def scale (x : Double) : Nat := max x.exponent 1

/-- The number denoted by a word that is no NaN. -/
def toFloat (x : Double) : Float := Float.ofBits x.bits

/-! ### Rounding to an integer -/

/-- The nearest integer to a number divided by a power of two, a half to the even one. -/
def shiftedToEven (n shift : Nat) : Nat :=
  let unit := 2 ^ shift
  let quotient := n / unit
  let rest := n % unit
  if unit < 2 * rest ∨ (unit = 2 * rest ∧ quotient % 2 = 1) then quotient + 1 else quotient

/-- The magnitude of a finite value rounded to the nearest integer, a half to the even one. -/
def nearestEven (x : Double) : Nat :=
  if 1075 ≤ x.scale then x.significand * 2 ^ (x.scale - 1075)
  else shiftedToEven x.significand (1075 - x.scale)

/-- The value rounded to the nearest integer, a half to the even one; infinities and NaNs have
none. -/
def roundEven? (x : Double) : Option Int :=
  if x.exponent = 2047 then none
  else some (if x.isNegative then -(x.nearestEven : Int) else x.nearestEven)

/-! ### Arithmetic -/

/-- A NaN made quiet; its sign and the rest of its payload stay. -/
def quiet (x : Double) : Double := ⟨x.bits ||| 0x0008000000000000⟩

/-- The word of a computed number, with `invalid` for every NaN. -/
def ofFloat (r : Float) : Double :=
  let d : Double := ⟨r.toBits⟩
  if d.isNaN then invalid else d

/-- A function of one number, passing a NaN through. -/
def map (f : Float → Float) (a : Double) : Double :=
  if a.isNaN then a.quiet else ofFloat (f a.toFloat)

/-- A function of two numbers, passing the first NaN through. -/
def map₂ (f : Float → Float → Float) (a b : Double) : Double :=
  if a.isNaN then a.quiet
  else if b.isNaN then b.quiet
  else ofFloat (f a.toFloat b.toFloat)

/-- An arc function of one number, defined from minus one to one, passing a NaN through. -/
def arc (f : Float → Float) (a : Double) : Double :=
  if a.isNaN then a.quiet
  else if a.toFloat.abs ≤ 1 then ofFloat (f a.toFloat)
  else outsideDomain

/-- The angle at which a point is seen from the origin. Of two NaNs that of the abscissa `x` counts
as the first. -/
def angle (y x : Double) : Double := map₂ (fun x y => Float.atan2 y x) x y

/-- The opposite: the sign bit flips, on NaNs and zeros too. -/
def neg (a : Double) : Double := ⟨a.bits ^^^ 0x8000000000000000⟩

/-- The absolute value: the sign bit clears, on NaNs and zeros too. -/
def abs (a : Double) : Double := ⟨a.bits &&& 0x7FFFFFFFFFFFFFFF⟩

/-- The sum. -/
def add (a b : Double) : Double := map₂ (· + ·) a b

/-- The difference. -/
def sub (a b : Double) : Double := map₂ (· - ·) a b

/-- The product. -/
def mul (a b : Double) : Double := map₂ (· * ·) a b

/-- The quotient. -/
def div (a b : Double) : Double := map₂ (· / ·) a b

/-- Strict order of numbers; a NaN is not comparable. -/
def lt (a b : Double) : Bool := !a.isNaN && !b.isNaN && decide (a.toFloat < b.toFloat)

/-- Order of numbers; a NaN is not comparable. -/
def le (a b : Double) : Bool := !a.isNaN && !b.isNaN && decide (a.toFloat ≤ b.toFloat)

/-! ### Between the two precisions -/

/-- The magnitude of the nearest single-precision word to that of a number, ties to even. What lies
beyond the greatest number becomes infinite. -/
def narrowMagnitude (x : Double) : Nat :=
  let infinite := 0x7F800000
  if x.exponent = 2047 then infinite
  else
    -- Single precision keeps 24 bits, and none below the place of the least subnormal number.
    let place := max (x.significand.log2 + x.scale - 23) 926
    min infinite ((place - 926) * 2 ^ 23 + shiftedToEven x.significand (place - x.scale))

/-- The nearest single-precision word, ties to even; a NaN keeps its sign and upper payload and
becomes quiet. -/
def narrow (a : Double) : Single :=
  let sign : UInt32 := (a.bits >>> 32).toUInt32 &&& 0x80000000
  if a.isNaN then
    let payload : UInt32 := (a.bits >>> 29).toUInt32 &&& 0x003FFFFF
    ⟨sign ||| 0x7FC00000 ||| payload⟩
  else ⟨sign ||| UInt32.ofNat a.narrowMagnitude⟩

end Double

namespace Single

/-- The magnitude of a number as a double-precision word: every single-precision number is a
double-precision one, a normal one unless it is zero. -/
def widenMagnitude (x : Single) : Nat :=
  if x.exponent = 255 then 0x7FF0000000000000
  else if x.significand = 0 then 0
  else
    let top := x.significand.log2
    (top + x.scale + 872) * 2 ^ 52 + x.significand * 2 ^ (52 - top)

/-- The same value in double precision; a NaN keeps its sign and payload and becomes quiet. -/
def widen (x : Single) : Double :=
  let sign : UInt64 := (x.bits &&& 0x80000000).toUInt64 <<< 32
  if x.isNaN then
    let payload : UInt64 := (x.bits &&& 0x003FFFFF).toUInt64 <<< 29
    ⟨sign ||| 0x7FF8000000000000 ||| payload⟩
  else ⟨sign ||| UInt64.ofNat x.widenMagnitude⟩

end Single

end ShaderEffect
