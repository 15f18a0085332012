import ShaderEffect.Bytes.Comment
import ShaderEffect.Bytes.Reader
import ShaderEffect.ConstantTable.Decode
import ShaderEffect.Program.Check

/-!
# Reading programs

A program is a version token, comments that hold its parts, and an end token that may be missing.
Of several parts of one kind the last one counts; the instructions must be there.
-/

namespace ShaderEffect.Program

/-- The high half of the version token. -/
def versionTag : UInt32 := 0x4658

/-- The token after the last comment. -/
def endToken : UInt32 := 0x0000FFFF

/-- The bank with a number found in code. -/
def bankOf (number : UInt32) : Except FormatError Bank :=
  match Bank.ofNumber? number.toNat with
  | some bank => .ok bank
  | none => .error (.unknownBank number.toNat)

/-- Read the index register of an operand, if it has one. -/
def readIndex : Reader (Option IndexRegister) := do
  let flag ← Reader.word "operand index flag"
  if flag = 0 then return none
  if flag = 1 then
    let bank ← bankOf (← Reader.word "operand index table")
    let offset ← Reader.word "operand index offset"
    return some ⟨bank, offset.toNat⟩
  throw (.badIndexFlag flag.toNat)

/-- Read an operand. -/
def readOperand : Reader Operand := do
  let index ← readIndex
  let bank ← bankOf (← Reader.word "operand table")
  let offset ← Reader.word "operand offset"
  if 0x7FFFFFFF < offset then throw (.operandOffset offset.toNat)
  return ⟨bank, offset.toNat, index⟩

/-- Read an instruction. -/
def readInstruction : Reader Instruction := do
  let token ← Reader.word "instruction token"
  let number := ((token >>> 20) &&& 0x7FF).toNat
  let some opcode := Opcode.ofNumber? number | throw (.unknownOpcode number)
  let count ← Reader.word "instruction input count"
  if 8 < count then throw (.tooManyOperands opcode count.toNat)
  let inputs ← Reader.times count.toNat readOperand
  let output ← readOperand
  return {
    opcode
    scalar := token >>> 31 == 1
    components := (token &&& 0xFFFF).toNat
    inputs
    output }

/-- Read the instructions. The shortest has a token, an input count and two operands of two words
each, so a count that cannot fit is refused at once. -/
def readInstructions : Reader (List Instruction) := do
  let count ← Reader.word "instruction count"
  Reader.whole fun body =>
    if body.size < count.toNat * 24 then .error (.tooManyInstructions count.toNat body.size)
    else .ok ()
  Reader.times count.toNat readInstruction

/-- Read the literals: a count, then eight bytes for each. -/
def readLiterals (body : Bytes) : Except FormatError (List Double) := do
  let count ← body.word 0 "literal count"
  let raw ← body.slice 4 (count.toNat * 8) "literal pool"
  return (Word.longs (Word.ofList raw.toList)).map Double.mk

/-- The parts of a program found so far. -/
structure Parts where
  inputs : ConstantTable := .empty
  literals : List Double := []
  code : Option Bytes := none

/-- Take in one comment. -/
def Parts.add (parts : Parts) (comment : Comment) : Except FormatError Parts :=
  if comment.code = Comment.constantTable then do
    return { parts with inputs := ← ConstantTable.decode comment.body }
  else if comment.code = Comment.literals then do
    return { parts with literals := ← readLiterals comment.body }
  else if comment.code = Comment.instructions then
    .ok { parts with code := some comment.body }
  else .ok parts

/-- Take in comments one after the other. -/
def Parts.addAll (parts : Parts) : List Comment → Except FormatError Parts
  | [] => .ok parts
  | comment :: rest => do (← parts.add comment).addAll rest

/-- Read and check a program. -/
def decode (data : Bytes) : Except FormatError Program := do
  let version ← data.word 0 "preshader version"
  if version >>> 16 ≠ versionTag then throw (.badProgramVersion version)
  let (comments, stop) ← Comment.readAll data 4
  if stop < data.size then
    let token ← data.word stop "preshader end token"
    if token ≠ endToken then throw (.unexpectedProgramToken token stop)
  let parts ← ({} : Parts).addAll comments
  let some code := parts.code | throw .missingCode
  let instructions ← readInstructions.runAt code 0
  let program : Program := ⟨parts.inputs, parts.literals, instructions⟩
  program.check
  return program

end ShaderEffect.Program
