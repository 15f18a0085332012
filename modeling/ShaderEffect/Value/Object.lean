import ShaderEffect.Effect.Basic

/-!
# Objects of parameters

The object slots of a parameter are exchanged all at once, or the single slot of a parameter that is
no array by the type of its object. Only objects that fit the type are stored.
-/

namespace ShaderEffect.EffectState

variable (s : EffectState)

/-- A parameter that holds objects. -/
def objectNode (h : Handle) : Except CallError Parameter := do
  let p ← s.node h
  if p.decl.type.isObjectSlot then return p else throw .notObjects

/-- All object slots of a parameter. -/
def getObjects (h : Handle) : Except CallError (List (Option EffectObject)) := do
  let _ ← s.objectNode h
  return s.objects h

/-- Whether a slot may take what is to be stored: an object that fits, or none. -/
def slotFits (type : ParameterType) : Option EffectObject → Bool
  | some o => o.fits type
  | none => true

/-- Replace all object slots of a parameter. -/
def setObjects (h : Handle) (values : List (Option EffectObject)) :
    Except CallError EffectState := do
  let p ← s.objectNode h
  if values.length ≠ p.objects.length then throw .objectCount
  if !values.all (slotFits p.decl.type) then throw .objectType
  return s.writeObjects h fun _ => values

/-! ### Single slots -/

/-- A parameter of an accepted type that is no array. -/
def singleNode (h : Handle) (accepts : ParameterType → Bool) : Except CallError Parameter := do
  let p ← s.node h
  if p.decl.elements = 0 ∧ accepts p.decl.type then return p else throw .accessorType

/-- Read a single slot. -/
def getSingle (h : Handle) (accepts : ParameterType → Bool) :
    Except CallError (Option EffectObject) := do
  let _ ← s.singleNode h accepts
  return s.object? h

/-- Replace the first slot. -/
def replaceSlot (object : Option EffectObject) :
    List (Option EffectObject) → List (Option EffectObject)
  | [] => []
  | _ :: rest => object :: rest

/-- Replace a single slot. -/
def setSingle (h : Handle) (accepts : ParameterType → Bool) (object : Option EffectObject) :
    Except CallError EffectState := do
  let p ← s.singleNode h accepts
  if !slotFits p.decl.type object then throw .objectType
  return s.writeObjects h (replaceSlot object)

/-- Read a text. -/
def getText (h : Handle) : Except CallError (Option String) := do
  return ((← s.getSingle h (· == .string)).bind EffectObject.text?).map (·.value)

/-- Store a text, as a new object. -/
def setText (h : Handle) (text : String) : Except CallError EffectState :=
  let (object, memory) := s.memory.share text
  EffectState.setSingle { s with memory } h (· == .string) (some (.text object))

/-- Read a texture. -/
def getTexture (h : Handle) : Except CallError (Option (Shared Texture)) := do
  return (← s.getSingle h ParameterType.isTexture).bind EffectObject.texture?

/-- Store a texture, or take it away. -/
def setTexture (h : Handle) (texture : Option (Shared Texture)) : Except CallError EffectState :=
  s.setSingle h ParameterType.isTexture (texture.map .texture)

/-- Read the shader of a stage. -/
def getShader (stage : Stage) (h : Handle) : Except CallError (Option (Shared Shader)) := do
  return (← s.getSingle h (· == stage.type)).bind EffectObject.shader?

end ShaderEffect.EffectState
