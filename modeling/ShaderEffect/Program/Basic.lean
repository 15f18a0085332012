import ShaderEffect.ConstantTable.Basic
import ShaderEffect.Number.Double
import ShaderEffect.Program.Opcode

/-!
# Expression programs

An expression program computes floats from parameter values. Its instructions read and write
components of register banks, each component lane by lane. The sizes of the banks follow from the
program: the input bank covers every input entry, the output and scratch banks cover every component
that an instruction touches.
-/

namespace ShaderEffect

/-- An index register: the component whose value, in registers, is added to an offset. -/
structure IndexRegister where
  bank : Bank
  offset : Nat
deriving DecidableEq

/-- A reference to components of a bank, possibly relative to an index register. -/
structure Operand where
  bank : Bank
  /-- The component of the first lane: four times the register, plus the component in it. -/
  offset : Nat
  index : Option IndexRegister
deriving DecidableEq

/-- One instruction. -/
structure Instruction where
  opcode : Opcode
  /-- Whether the first operand gives its first lane to every component. -/
  scalar : Bool
  components : Nat
  inputs : List Operand
  output : Operand
deriving DecidableEq

namespace Instruction

/-- How many lanes of its `i`-th input an instruction reads. -/
def inputLanes (ins : Instruction) (i : Nat) : Nat :=
  match ins.opcode with
  | .dotSwiz => 1
  | .dot => ins.components
  | _ => if ins.scalar && i == 0 then 1 else ins.components

/-- How many lanes an instruction writes. -/
def outputLanes (ins : Instruction) : Nat :=
  if ins.opcode.isReduction then 1 else ins.components

/-- The component at which the reading of an operand over `lanes` lanes must end inside `bank`, if
it reads there at a place known in advance: the index register of a relative operand, and all lanes
of any other. -/
def operandEnd (bank : Bank) (operand : Operand) (lanes : Nat) : Nat :=
  match operand.index with
  | some r => if r.bank = bank then r.offset + 1 else 0
  | none => if operand.bank = bank then operand.offset + lanes else 0

/-- One past the last component of `bank` that the inputs touch, the first being the `i`-th. -/
def inputsEnd (ins : Instruction) (bank : Bank) : Nat → List Operand → Nat
  | _, [] => 0
  | i, operand :: rest =>
    max (operandEnd bank operand (ins.inputLanes i)) (ins.inputsEnd bank (i + 1) rest)

/-- One past the last component of `bank` that an instruction touches at a place known in
advance. -/
def bankEnd (ins : Instruction) (bank : Bank) : Nat :=
  max (ins.inputsEnd bank 0 ins.inputs)
    (if ins.output.bank = bank then ins.output.offset + ins.outputLanes else 0)

/-- The registers that hold the components an instruction writes. -/
def outputRegisters (ins : Instruction) : List Nat :=
  let first := ins.output.offset / 4
  let last := (ins.output.offset + ins.outputLanes - 1) / 4
  List.range' first (last + 1 - first)

end Instruction

/-- An expression program. -/
structure Program where
  inputs : ConstantTable
  literals : List Double
  instructions : List Instruction
deriving DecidableEq

namespace Program

/-- The size of the input bank, in components. -/
def inputLength (p : Program) : Nat := p.inputs.componentCount

/-- One past the last component of `bank` that an instruction touches. -/
def bankEnd (p : Program) (bank : Bank) : Nat :=
  (p.instructions.map (·.bankEnd bank)).foldl max 0

/-- The size of the output bank: whole registers that cover every component touched. -/
def outputLength (p : Program) : Nat := (p.bankEnd .output + 3) / 4 * 4

/-- The size of the scratch bank. -/
def tempLength (p : Program) : Nat := p.bankEnd .temp

/-- Insert into an ascending list without repetition. -/
def insertRegister (r : Nat) : List Nat → List Nat
  | [] => [r]
  | x :: xs => if r < x then r :: x :: xs else if r = x then x :: xs else x :: insertRegister r xs

/-- The output registers that some instruction writes, in ascending order. -/
def writtenRegisters (p : Program) : List Nat :=
  ((p.instructions.filter (·.output.bank == .output)).flatMap (·.outputRegisters)).foldr
    insertRegister []

end Program

end ShaderEffect
