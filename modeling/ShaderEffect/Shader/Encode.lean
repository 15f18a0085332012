import ShaderEffect.Program.Encode
import ShaderEffect.Shader.Basic

/-!
# Reading and writing shaders

A shader opens with a version token that tells its stage. Comments right after it may hold its
constants and its program; what follows is the device's business. What is written is the smallest
shader with given constants and program.
-/

namespace ShaderEffect.Shader

open Word

/-! ### Reading -/

/-- The parts of a shader found so far. -/
structure Parts where
  constants : ConstantTable := .empty
  program : Option Program := none

/-- Take in one comment. -/
def Parts.add (parts : Parts) (comment : Comment) : Except FormatError Parts :=
  if comment.code = Comment.constantTable then do
    return { parts with constants := ← ConstantTable.decode comment.body }
  else if comment.code = Comment.program then do
    return { parts with program := some (← Program.decode comment.body) }
  else .ok parts

/-- Take in comments one after the other. -/
def Parts.addAll (parts : Parts) : List Comment → Except FormatError Parts
  | [] => .ok parts
  | comment :: rest => do (← parts.add comment).addAll rest

/-- Read a shader. -/
def decode (code : Bytes) : Except FormatError Shader := do
  let version ← code.word 0 "shader version token"
  let some stage := Stage.ofTag? (version >>> 16) | throw (.badShaderVersion version)
  if code.size % 4 ≠ 0 then throw (.shaderLength code.size)
  let (comments, _) ← Comment.readAll code 4
  let parts ← ({} : Parts).addAll comments
  return {
    stage
    major := (version >>> 8).toUInt8
    minor := version.toUInt8
    code
    constants := parts.constants
    program := parts.program }

/-! ### Writing -/

/-- Write a shader of model 2.0. -/
def encode (stage : Stage) (constants : List ConstantEntry) (program : Option (List UInt8)) :
    List UInt8 :=
  bytes (stage.tag <<< 16 ||| 0x0200) ++
    Comment.encode Comment.constantTable (ConstantTable.encode constants) ++
    (match program with
      | some code => Comment.encode Comment.program code
      | none => []) ++
    bytes Program.endToken

end ShaderEffect.Shader
