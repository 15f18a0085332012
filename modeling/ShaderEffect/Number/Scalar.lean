import ShaderEffect.Number.Single
import ShaderEffect.Kind

/-!
# Numbers in storage

Storage is a list of words. The element type of a parameter says how a word is read, and how a
number is written back. All conversions between booleans, integers and floats are here.

A colour is four channels between zero and one, red first, or one word with a byte per channel:
alpha in the highest byte, then red, green and blue.
-/

namespace ShaderEffect

/-- A number on its way between a caller and storage. -/
inductive Scalar where
  | bool (value : Bool)
  | int (value : Int32)
  | float (value : Single)
deriving DecidableEq

namespace Scalar

/-- The integer zero. -/
def zero : Scalar := .int 0

/-- Whether the number is true: a float is false only if all its bits are clear. -/
def toBool : Scalar → Bool
  | .bool b => b
  | .int n => n != 0
  | .float x => x.bits != 0

/-- The number as an integer: floats lose their fraction and are clamped. -/
def toInt : Scalar → Int32
  | .bool b => if b then 1 else 0
  | .int n => n
  | .float x => x.toInt32

/-- The number as a float. -/
def toFloat : Scalar → Single
  | .bool b => if b then .one else .zero
  | .int n => .ofInt32 n
  | .float x => x

/-- The number that a word of element type `type` holds. -/
def ofWord (type : ParameterType) (word : UInt32) : Scalar :=
  match type with
  | .float => .float ⟨word⟩
  | .bool => .bool (word != 0)
  | _ => .int word.toInt32

/-- The word written where a type can hold no number. -/
def unsupportedWord : UInt32 := 0x12345678

/-- The word that stores the number as element type `type`. -/
def toWord (type : ParameterType) (value : Scalar) : UInt32 :=
  match type with
  | .float => value.toFloat.bits
  | .bool => if value.toBool then 1 else 0
  | .int | .void => value.toInt.toUInt32
  | _ => unsupportedWord

end Scalar

/-! ### Packed colours -/

namespace Color

/-- The value of a full channel byte. -/
def channelMax : Float32 := 255

/-- A channel clamped to `[0, 1]` and scaled to a byte; a NaN counts as full. -/
def channelByte (channel : Single) : UInt32 :=
  if channel.isNaN then 255
  else
    let value := Float32.ofBits channel.bits
    let low := if value < 0 then 0 else value
    let clamped := if low < 1 then low else 1
    (clamped * channelMax).toUInt32

/-- Pack the channels; alpha counts only if more than three are given. -/
def pack (channels : List Single) : UInt32 :=
  let byte (i : Nat) : UInt32 := channelByte ((channels[i]?).getD .zero)
  let rgb := byte 2 ||| byte 1 <<< 8 ||| byte 0 <<< 16
  if 3 < channels.length then rgb ||| byte 3 <<< 24 else rgb

/-- The channel held in the byte at bit `shift`. -/
def channel (packed : UInt32) (shift : UInt32) : Single :=
  ⟨(((packed >>> shift) &&& 0xFF).toFloat32 / channelMax).toBits⟩

/-- Unpack the four channels: red, green, blue and alpha. -/
def unpack (packed : UInt32) : Vector Single 4 :=
  #v[channel packed 16, channel packed 8, channel packed 0, channel packed 24]

end Color

end ShaderEffect
