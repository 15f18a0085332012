/-!
# Classes and types of parameters

A parameter has a class, which says how its components are arranged, and a type, which says what
each component is. Both are numbered in stored data.
-/

namespace ShaderEffect

/-- How the components of a parameter are arranged. -/
inductive ParameterClass where
  | scalar
  | vector
  | matrixRows
  | matrixColumns
  | object
  | struct
deriving DecidableEq, Inhabited

namespace ParameterClass

/-- The class with the given number. -/
def ofNumber? : Nat → Option ParameterClass
  | 0 => some .scalar
  | 1 => some .vector
  | 2 => some .matrixRows
  | 3 => some .matrixColumns
  | 4 => some .object
  | 5 => some .struct
  | _ => none

/-- The number of a class. -/
def number : ParameterClass → Nat
  | .scalar => 0
  | .vector => 1
  | .matrixRows => 2
  | .matrixColumns => 3
  | .object => 4
  | .struct => 5

/-- Whether parameters of the class hold numbers. -/
def isNumeric : ParameterClass → Bool
  | .scalar | .vector | .matrixRows | .matrixColumns => true
  | .object | .struct => false

/-- The name of a class. -/
def name : ParameterClass → String
  | .scalar => "Scalar"
  | .vector => "Vector"
  | .matrixRows => "MatrixRows"
  | .matrixColumns => "MatrixColumns"
  | .object => "Object"
  | .struct => "Struct"

theorem ofNumber?_number (c : ParameterClass) : ofNumber? c.number = some c := by
  cases c <;> rfl

end ParameterClass

/-- What each component of a parameter is. -/
inductive ParameterType where
  | void
  | bool
  | int
  | float
  | string
  | texture
  | texture1D
  | texture2D
  | texture3D
  | textureCube
  | sampler
  | sampler1D
  | sampler2D
  | sampler3D
  | samplerCube
  | pixelShader
  | vertexShader
  /-- A fragment type, of which nothing is stored. -/
  | unsupported
deriving DecidableEq, Inhabited

namespace ParameterType

/-- The type with the given number; the three fragment types are one. -/
def ofNumber? : Nat → Option ParameterType
  | 0 => some .void
  | 1 => some .bool
  | 2 => some .int
  | 3 => some .float
  | 4 => some .string
  | 5 => some .texture
  | 6 => some .texture1D
  | 7 => some .texture2D
  | 8 => some .texture3D
  | 9 => some .textureCube
  | 10 => some .sampler
  | 11 => some .sampler1D
  | 12 => some .sampler2D
  | 13 => some .sampler3D
  | 14 => some .samplerCube
  | 15 => some .pixelShader
  | 16 => some .vertexShader
  | 17 | 18 | 19 => some .unsupported
  | _ => none

/-- The least number of a type. -/
def number : ParameterType → Nat
  | .void => 0
  | .bool => 1
  | .int => 2
  | .float => 3
  | .string => 4
  | .texture => 5
  | .texture1D => 6
  | .texture2D => 7
  | .texture3D => 8
  | .textureCube => 9
  | .sampler => 10
  | .sampler1D => 11
  | .sampler2D => 12
  | .sampler3D => 13
  | .samplerCube => 14
  | .pixelShader => 15
  | .vertexShader => 16
  | .unsupported => 17

/-- Whether components of the type are numbers. -/
def isNumeric : ParameterType → Bool
  | .void | .bool | .int | .float => true
  | _ => false

/-- Whether components of the type are textures. -/
def isTexture : ParameterType → Bool
  | .texture | .texture1D | .texture2D | .texture3D | .textureCube => true
  | _ => false

/-- Whether components of the type are samplers. -/
def isSampler : ParameterType → Bool
  | .sampler | .sampler1D | .sampler2D | .sampler3D | .samplerCube => true
  | _ => false

/-- Whether components of the type are shaders. -/
def isShader : ParameterType → Bool
  | .pixelShader | .vertexShader => true
  | _ => false

/-- Whether each component takes an object slot. -/
def isObjectSlot (t : ParameterType) : Bool :=
  t == .string || t.isTexture || t.isShader

/-- The name of a type. -/
def name : ParameterType → String
  | .void => "Void"
  | .bool => "Bool"
  | .int => "Int"
  | .float => "Float"
  | .string => "String"
  | .texture => "Texture"
  | .texture1D => "Texture1D"
  | .texture2D => "Texture2D"
  | .texture3D => "Texture3D"
  | .textureCube => "TextureCube"
  | .sampler => "Sampler"
  | .sampler1D => "Sampler1D"
  | .sampler2D => "Sampler2D"
  | .sampler3D => "Sampler3D"
  | .samplerCube => "SamplerCube"
  | .pixelShader => "PixelShader"
  | .vertexShader => "VertexShader"
  | .unsupported => "Unsupported"

theorem ofNumber?_number (t : ParameterType) : ofNumber? t.number = some t := by
  cases t <;> rfl

end ParameterType

end ShaderEffect
