/-!
# Single-precision words

A 32-bit float is kept as its word. Every move, copy and comparison by identity is then a fact
about words: the payload of a NaN and the sign of zero survive, and equality is decidable.
Arithmetic happens only where a value is converted, and each conversion states its own rule.

The arithmetic of whole numbers is that of the core language in every module. A library of algebra
brings instances of its own for powers and for zero; they are equal, but a definition would then
depend on whether its module sees that library.
-/

attribute [instance (20000), default_instance 20000] instPowNat

attribute [instance (20000)] Zero.ofOfNat0

namespace ShaderEffect

/-- A 32-bit IEEE 754 float, as its word. -/
structure Single where
  bits : UInt32
deriving DecidableEq, Inhabited

namespace Single

/-- Positive zero, the value of every state that was never set. -/
def zero : Single := ⟨0⟩

/-- The number one. -/
def one : Single := ⟨0x3F800000⟩

/-- The number minus one. -/
def minusOne : Single := ⟨0xBF800000⟩

/-! ### Fields -/

/-- Whether the sign bit is set. -/
def isNegative (x : Single) : Bool := x.bits >>> 31 == 1

/-- The biased exponent, between 0 and 255. -/
def exponent (x : Single) : Nat := ((x.bits >>> 23) &&& 0xFF).toNat

/-- The fraction field, without the hidden bit. -/
def fraction (x : Single) : Nat := (x.bits &&& 0x7FFFFF).toNat

/-- Whether the word is a NaN of any sign and payload. -/
def isNaN (x : Single) : Bool := x.exponent == 255 && x.fraction != 0

/-- Whether the word is neither a NaN nor an infinity. -/
def isFinite (x : Single) : Bool := x.exponent != 255

/-- Whether the value equals zero: both signed zeros do. -/
def isZero (x : Single) : Bool := x.bits &&& 0x7FFFFFFF == 0

/-- The significand with its hidden bit: a finite value is `significand * 2 ^ (scale - 150)`. -/
def significand (x : Single) : Nat :=
  if x.exponent = 0 then x.fraction else x.fraction + 2 ^ 23

/-- The exponent that goes with `significand`. -/
def scale (x : Single) : Nat := max x.exponent 1

/-! ### Conversion to and from integers -/

/-- The magnitude of a finite value with its fractional part dropped. -/
def integerPart (x : Single) : Nat :=
  if 150 ≤ x.scale then x.significand * 2 ^ (x.scale - 150)
  else x.significand / 2 ^ (150 - x.scale)

/-- The value rounded toward zero; infinities and NaNs have none. -/
def truncate? (x : Single) : Option Int :=
  if x.isFinite then some (if x.isNegative then -(x.integerPart : Int) else x.integerPart)
  else none

/-- The value rounded toward zero and clamped to 32 bits; a NaN becomes zero. -/
def toInt32 (x : Single) : Int32 :=
  match x.truncate? with
  | some n => Int32.ofInt (max (-2147483648) (min 2147483647 n))
  | none => if x.isNaN then 0 else if x.isNegative then Int32.minValue else Int32.maxValue

/-- The nearest float to an integer, ties to even. -/
def ofInt32 (n : Int32) : Single := ⟨n.toFloat32.toBits⟩

end Single

end ShaderEffect
