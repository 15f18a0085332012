import ShaderEffect.Bytes.Comment
import ShaderEffect.ConstantTable.Encode
import ShaderEffect.Program.Decode

/-!
# Writing programs

A program is written from a description: literals, input entries and instructions whose operands
need not make sense.
-/

namespace ShaderEffect

/-- An operand as it is to be written. -/
structure WrittenOperand where
  bank : Bank
  offset : UInt32
  index : Option (Bank × UInt32)
  /-- On the first operand of an instruction: it gives its first lane to every component. -/
  scalar : Bool
deriving DecidableEq

namespace WrittenOperand

/-- The words of an operand. -/
def words (r : WrittenOperand) : List UInt32 :=
  (match r.index with
    | none => [0]
    | some (bank, offset) => [1, UInt32.ofNat bank.number, offset]) ++
  [UInt32.ofNat r.bank.number, r.offset]

end WrittenOperand

/-- An instruction as it is to be written. -/
structure WrittenInstruction where
  opcode : Opcode
  components : UInt32
  inputs : List WrittenOperand
  output : WrittenOperand
deriving DecidableEq

namespace WrittenInstruction

/-- Whether the first operand is marked scalar. -/
def scalar (ins : WrittenInstruction) : Bool :=
  match ins.inputs with
  | r :: _ => r.scalar
  | [] => false

/-- The token that opens an instruction. -/
def token (ins : WrittenInstruction) : UInt32 :=
  let scalarBit : UInt32 := if ins.scalar then 0x80000000 else 0
  scalarBit ||| UInt32.ofNat ins.opcode.number <<< 20 ||| ins.components

/-- The words of an instruction. -/
def words (ins : WrittenInstruction) : List UInt32 :=
  [ins.token, UInt32.ofNat ins.inputs.length] ++
    (ins.inputs ++ [ins.output]).flatMap WrittenOperand.words

end WrittenInstruction

/-- A program as it is to be written. -/
structure WrittenProgram where
  literals : List Double
  inputs : List ConstantEntry
  instructions : List WrittenInstruction
deriving DecidableEq

namespace WrittenProgram

open Word

/-- The comment body with the literals. -/
def literalBytes (p : WrittenProgram) : List UInt8 :=
  bytes (UInt32.ofNat p.literals.length) ++ p.literals.flatMap fun x => longBytes x.bits

/-- The comment body with the instructions. -/
def instructionBytes (p : WrittenProgram) : List UInt8 :=
  bytes (UInt32.ofNat p.instructions.length) ++
    listBytes (p.instructions.flatMap WrittenInstruction.words)

/-- Write a program; without inputs there is no constant table. -/
def encode (p : WrittenProgram) : List UInt8 :=
  bytes (Program.versionTag <<< 16 ||| 0x0200) ++
    (if p.inputs.isEmpty then []
      else Comment.encode Comment.constantTable (ConstantTable.encode p.inputs)) ++
    Comment.encode Comment.literals p.literalBytes ++
    Comment.encode Comment.instructions p.instructionBytes ++
    bytes Program.endToken

end WrittenProgram

end ShaderEffect
