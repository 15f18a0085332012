import ShaderEffect.Kind

/-!
# Constant tables

A constant table lists the constants of a shader or the inputs of an expression program: their
names, the registers they take and, if known, their shape.
-/

namespace ShaderEffect

/-- The kind of registers a constant is kept in. -/
inductive RegisterSet where
  | bool
  | int4
  | float4
  | sampler
deriving DecidableEq, Inhabited

namespace RegisterSet

/-- The register set with the given number. -/
def ofNumber? : Nat → Option RegisterSet
  | 0 => some .bool
  | 1 => some .int4
  | 2 => some .float4
  | 3 => some .sampler
  | _ => none

/-- The number of a register set. -/
def number : RegisterSet → Nat
  | .bool => 0
  | .int4 => 1
  | .float4 => 2
  | .sampler => 3

/-- The name of a register set. -/
def name : RegisterSet → String
  | .bool => "Bool"
  | .int4 => "Int4"
  | .float4 => "Float4"
  | .sampler => "Sampler"

theorem ofNumber?_number (s : RegisterSet) : ofNumber? s.number = some s := by
  cases s <;> rfl

end RegisterSet

/-- The shape of a constant. -/
structure ConstantShape where
  cls : ParameterClass
  type : ParameterType
  rows : Nat
  columns : Nat
  elements : Nat
deriving DecidableEq

/-- One entry of a constant table. -/
structure Constant where
  name : String
  set : RegisterSet
  /-- The first register. -/
  index : Nat
  /-- How many registers. -/
  count : Nat
  /-- The shape, if the table tells it. -/
  shape : Option ConstantShape
deriving DecidableEq

namespace Constant

/-- One past the last float component of the registers. -/
def componentEnd (c : Constant) : Nat := (c.index + c.count) * 4

/-- Whether matrices are laid out by columns. -/
def isColumnMajor (c : Constant) : Bool :=
  match c.shape with
  | some shape => shape.cls == .matrixColumns
  | none => false

end Constant

/-- A constant table. -/
structure ConstantTable where
  creator : Option String
  target : Option String
  constants : List Constant
deriving DecidableEq

namespace ConstantTable

/-- The table without entries. -/
def empty : ConstantTable := ⟨none, none, []⟩

/-- The first constant of the given name. -/
def find? (t : ConstantTable) (name : String) : Option Constant :=
  t.constants.find? (·.name == name)

/-- The number of float components that the entries other than samplers span. -/
def componentCount (t : ConstantTable) : Nat :=
  ((t.constants.filter (·.set != .sampler)).map Constant.componentEnd).foldl max 0

end ConstantTable

end ShaderEffect
