import ShaderEffect.Value.Shape

/-!
# Single numbers

A single number is read and written as a boolean, an integer or a float, whatever its type. An
integer can also be exchanged with a float vector, as a packed colour.
-/

namespace ShaderEffect.EffectState

variable (s : EffectState)

/-- Replace the first word. -/
def replaceFirst (word : UInt32) : List UInt32 → List UInt32
  | [] => []
  | _ :: rest => word :: rest

/-- Read a single number. -/
def getScalar (h : Handle) (error : CallError) : Except CallError Scalar := do
  match ← s.readIf h Parameter.isScalar error fun p words => (p.decl.type, words.head?) with
  | (type, some word) => return .ofWord type word
  | (_, none) => throw .noNumericStorage

/-- Write a single number. -/
def setScalar (h : Handle) (error : CallError) (value : Scalar) : Except CallError EffectState :=
  s.writeIf h Parameter.isScalar error fun p => replaceFirst (value.toWord p.decl.type)

/-- Read a number as a boolean. -/
def getBool (h : Handle) : Except CallError Bool := do
  return (← s.getScalar h .getBoolShape).toBool

/-- Write a boolean. -/
def setBool (h : Handle) (value : Bool) : Except CallError EffectState :=
  s.setScalar h .setBoolShape (.bool value)

/-- Read a number as a float. -/
def getFloat (h : Handle) : Except CallError Single := do
  return (← s.getScalar h .getFloatShape).toFloat

/-- Write a float. -/
def setFloat (h : Handle) (value : Single) : Except CallError EffectState :=
  s.setScalar h .setFloatShape (.float value)

/-- Whether a parameter is a single number. -/
def isScalarAt (h : Handle) : Bool :=
  match s.tree.node? h with
  | some p => p.isScalar
  | none => false

/-- Read a number as an integer, or a float vector as a packed colour. -/
def getInt (h : Handle) : Except CallError Int32 :=
  if s.isScalarAt h then do return (← s.getScalar h .getIntShape).toInt
  else s.readIf h Parameter.packsColor .getIntShape fun _ words =>
    (Color.pack ((words.take 4).map Single.mk)).toInt32

/-- Write an integer, or unpack it as a colour into a float vector. -/
def setInt (h : Handle) (value : Int32) : Except CallError EffectState :=
  if s.isScalarAt h then s.setScalar h .setIntShape (.int value)
  else s.writeIf h Parameter.packsColor .setIntShape fun _ =>
    overlay ((Color.unpack value.toUInt32).toList.map Single.bits)

end ShaderEffect.EffectState
