import ShaderEffect.Program.Basic
import ShaderEffect.Bytes.Word

/-!
# Shaders

A shader is code for the device, kept as it is, together with what an effect has to know to feed it:
its constants, and the program that computes further constants from parameters.
-/

namespace ShaderEffect

/-- The stage of the pipeline a shader runs in. -/
inductive Stage where
  | vertex
  | pixel
deriving DecidableEq, Inhabited, Hashable

namespace Stage

/-- The high half of the version token that opens a shader of this stage. -/
def tag : Stage → UInt32
  | .vertex => 0xFFFE
  | .pixel => 0xFFFF

/-- The stage whose version tokens have the given high half. -/
def ofTag? (tag : UInt32) : Option Stage :=
  if tag = 0xFFFE then some .vertex else if tag = 0xFFFF then some .pixel else none

/-- The name of a stage. -/
def name : Stage → String
  | .vertex => "Vertex"
  | .pixel => "Pixel"

theorem ofTag?_tag (s : Stage) : ofTag? s.tag = some s := by
  cases s <;> rfl

end Stage

/-- A shader. -/
structure Shader where
  stage : Stage
  major : UInt8
  minor : UInt8
  code : Bytes
  constants : ConstantTable
  program : Option Program
deriving DecidableEq

end ShaderEffect
