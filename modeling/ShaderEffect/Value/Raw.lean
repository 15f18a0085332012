import ShaderEffect.Bytes.Word
import ShaderEffect.Value.Shape

/-!
# Numbers one by one, and bytes

The numbers of a parameter are exchanged one by one, in the order in which they are stored, as far
as the parameter and the caller's list both reach. All bytes of a numeric parameter are exchanged at
once.
-/

namespace ShaderEffect.EffectState

variable {α : Type} (s : EffectState)

/-- Read numbers over a buffer. -/
def getNumbers (convert : Scalar → α) (h : Handle) (buffer : List α) :
    Except CallError (List α) :=
  s.readIf h Parameter.isNumberList .elementArrayShape fun p words =>
    overlay (words.map fun w => convert (.ofWord p.decl.type w)) buffer

/-- Write numbers. -/
def setNumbers (convert : α → Scalar) (h : Handle) (values : List α) :
    Except CallError EffectState :=
  s.writeIf h Parameter.isNumberList .elementArrayShape fun p =>
    overlay (values.map fun v => (convert v).toWord p.decl.type)

/-- Read numbers as booleans over a buffer. -/
def getBoolArray (h : Handle) (buffer : List Bool) : Except CallError (List Bool) :=
  s.getNumbers Scalar.toBool h buffer

/-- Write booleans. -/
def setBoolArray (h : Handle) (values : List Bool) : Except CallError EffectState :=
  s.setNumbers .bool h values

/-- Read numbers as integers over a buffer. -/
def getIntArray (h : Handle) (buffer : List Int32) : Except CallError (List Int32) :=
  s.getNumbers Scalar.toInt h buffer

/-- Write integers. -/
def setIntArray (h : Handle) (values : List Int32) : Except CallError EffectState :=
  s.setNumbers .int h values

/-- Read numbers as floats over a buffer. -/
def getFloatArray (h : Handle) (buffer : List Single) : Except CallError (List Single) :=
  s.getNumbers Scalar.toFloat h buffer

/-- Write floats. -/
def setFloatArray (h : Handle) (values : List Single) : Except CallError EffectState :=
  s.setNumbers .float h values

/-! ### Bytes -/

/-- A numeric parameter with no more bytes than the caller provides. -/
def rawNode (h : Handle) (provided : Nat) : Except CallError Parameter := do
  let p ← s.node h
  if !p.isRaw then throw .rawStorage
  if provided < p.bytes.toNat then throw .bufferTooSmall
  return p

/-- Read all bytes over a buffer. -/
def getValue (h : Handle) (buffer : List UInt8) : Except CallError (List UInt8) := do
  let _ ← s.rawNode h buffer.length
  return overlay (Word.listBytes (s.words h)) buffer

/-- Write all bytes; those that the parameter does not reach are left out. -/
def setValue (h : Handle) (values : List UInt8) : Except CallError EffectState := do
  let _ ← s.rawNode h values.length
  return s.writeWords h (overlay (Word.ofList values))

end ShaderEffect.EffectState
