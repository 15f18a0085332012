import ShaderEffect.Bytes.Word
import ShaderEffect.Kind

/-!
# Effect images

An effect image is the content of a stored effect before it is linked: parameters and annotations
as trees of typed values, techniques with their passes and state assignments, and data that is
attached to objects and states.
-/

namespace ShaderEffect

/-- What a type says about a value: its names and its shape. -/
structure Declaration where
  name : Option String
  semantic : Option String
  cls : ParameterClass
  type : ParameterType
  rows : UInt32
  columns : UInt32
  /-- The number of array elements, or zero if the value is no array. -/
  elements : UInt32
deriving DecidableEq, Inhabited

namespace Declaration

/-- The declaration of one element of an array. -/
def element (d : Declaration) : Declaration := { d with elements := 0 }

/-- The number of words a numeric value takes. -/
def wordCount (d : Declaration) : Nat := (d.rows * d.columns).toNat

end Declaration

/-- A state assignment: which operation, which of several alike targets, and the value. -/
structure Assignment (α : Type) where
  operation : UInt32
  index : UInt32
  value : α

/-- A typed value. -/
inductive Node where
  | array (decl : Declaration) (elements : List Node)
  | struct (decl : Declaration) (members : List Node)
  /-- A number, vector or matrix, as words in row order. -/
  | words (decl : Declaration) (words : List UInt32)
  /-- A reference to an object by its number. -/
  | object (decl : Declaration) (id : UInt32)
  /-- A sampler, as the states it sets. -/
  | sampler (decl : Declaration) (states : List (Assignment Node))
  /-- An object of a type that is not stored. -/
  | unsupported (decl : Declaration)

namespace Node

/-- The declaration of a value. -/
def decl : Node → Declaration
  | .array d _ | .struct d _ | .words d _ | .object d _ | .sampler d _ | .unsupported d => d

/-- The elements of an array or the members of a struct. -/
def children : Node → List Node
  | .array _ cs | .struct _ cs => cs
  | _ => []

end Node

/-- A parameter as stored. -/
structure ParameterRecord where
  flags : UInt32
  node : Node
  annotations : List Node

/-- A pass as stored. -/
structure PassRecord where
  name : Option String
  annotations : List Node
  states : List (Assignment Node)

/-- A technique as stored. -/
structure TechniqueRecord where
  name : Option String
  annotations : List Node
  passes : List PassRecord

/-- Data attached to an object: a text or the code of a shader. -/
structure ObjectData where
  id : UInt32
  data : Bytes
deriving DecidableEq

/-- Data attached to a state of a pass or of a sampler. -/
structure Resource where
  technique : UInt32
  index : UInt32
  element : UInt32
  state : UInt32
  usage : UInt32
  data : Bytes
deriving DecidableEq

/-- The technique or element number that stands for none. -/
def noIndex : UInt32 := 0xFFFFFFFF

/-- An effect image. -/
structure Image where
  parameters : List ParameterRecord
  techniques : List TechniqueRecord
  objectCount : UInt32
  objectData : List ObjectData
  resources : List Resource

end ShaderEffect
