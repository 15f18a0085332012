import ShaderEffect.Shader.Basic

/-!
# Objects

Objects are what parameters hold besides numbers: texts, textures and shaders. An object is shared
by reference, so it has an identity of its own, and two objects are the same only if they have the
same identity, whatever they contain.
-/

namespace ShaderEffect

/-- A value with an identity. -/
structure Shared (α : Type) where
  id : Nat
  value : α
deriving DecidableEq

/-- The dimensions of a texture. -/
inductive TextureKind where
  | oneD
  | twoD
  | threeD
  | cube
deriving DecidableEq, Inhabited

/-- A texture of the host; nothing but its kind matters here. -/
structure Texture where
  kind : TextureKind
  label : String
deriving DecidableEq

/-- Whether a texture of the kind may be stored in a parameter of the type. -/
def TextureKind.fits (kind : TextureKind) : ParameterType → Bool
  | .texture => true
  | .texture1D => kind == .oneD
  | .texture2D => kind == .twoD
  | .texture3D => kind == .threeD
  | .textureCube => kind == .cube
  | _ => false

/-- The type of parameters that hold shaders of a stage. -/
def Stage.type : Stage → ParameterType
  | .vertex => .vertexShader
  | .pixel => .pixelShader

/-- The content of an object slot. -/
inductive EffectObject where
  | text (s : Shared String)
  | texture (t : Shared Texture)
  | shader (s : Shared Shader)
deriving DecidableEq

namespace EffectObject

/-- The identity of an object. -/
def id : EffectObject → Nat
  | .text s => s.id
  | .texture t => t.id
  | .shader s => s.id

/-- Whether two objects are the same one. -/
def isSame : EffectObject → EffectObject → Bool
  | .text a, .text b => a.id == b.id
  | .texture a, .texture b => a.id == b.id
  | .shader a, .shader b => a.id == b.id
  | _, _ => false

/-- Whether an object may be stored in a parameter of the type. -/
def fits (o : EffectObject) (type : ParameterType) : Bool :=
  match o with
  | .text _ => type == .string
  | .texture t => t.value.kind.fits type
  | .shader s => type == s.value.stage.type

/-- The object as a text. -/
def text? : EffectObject → Option (Shared String)
  | .text s => some s
  | _ => none

/-- The object as a texture. -/
def texture? : EffectObject → Option (Shared Texture)
  | .texture t => some t
  | _ => none

/-- The object as a shader. -/
def shader? : EffectObject → Option (Shared Shader)
  | .shader s => some s
  | _ => none

end EffectObject

/-- Whether two slots hold the same object, or both none. -/
def sameSlot : Option EffectObject → Option EffectObject → Bool
  | some a, some b => a.isSame b
  | none, none => true
  | _, _ => false

/-- Whether two lists of slots agree slot by slot. -/
def sameSlots : List (Option EffectObject) → List (Option EffectObject) → Bool
  | [], [] => true
  | a :: as, b :: bs => sameSlot a b && sameSlots as bs
  | _, _ => false

end ShaderEffect
