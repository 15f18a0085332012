import ShaderEffect.Error
import ShaderEffect.Program.Basic

/-!
# Checking programs

A program may run only if every operand count and component count fits its opcode, every read at a
known place ends inside its bank, every output is a direct reference into a writable bank, and the
writable banks stay within the register file. Faults are reported instruction by instruction, in the
order in which an instruction is written down.
-/

namespace ShaderEffect.Program

/-- The writable banks hold at most 256 registers of four components. -/
def componentLimit : Nat := 256 * 4

/-- The size of a bank that cannot grow; the writable banks grow as needed. -/
def fixedLength? (p : Program) : Bank → Option Nat
  | .literal => some p.literals.length
  | .input => some p.inputLength
  | .output | .temp => none

/-- Check that a read of `bank` ending at `stop` stays inside it. -/
def checkEnd (p : Program) (n : Nat) (bank : Bank) (stop : Nat) : Except FormatError Unit :=
  match p.fixedLength? bank with
  | some limit => if limit < stop then .error (.readPastBank n bank stop limit) else .ok ()
  | none => .ok ()

/-- Check what an operand reads at a known place. -/
def checkOperand (p : Program) (n : Nat) (operand : Operand) (lanes : Nat) :
    Except FormatError Unit :=
  match operand.index with
  | some r => p.checkEnd n r.bank (r.offset + 1)
  | none => p.checkEnd n operand.bank (operand.offset + lanes)

/-- Check the inputs of an instruction, the first being the `i`-th. -/
def checkInputs (p : Program) (n : Nat) (ins : Instruction) :
    Nat → List Operand → Except FormatError Unit
  | _, [] => .ok ()
  | i, operand :: rest => do
    p.checkOperand n operand (ins.inputLanes i)
    p.checkInputs n ins (i + 1) rest

/-- Check the `n`-th instruction. -/
def checkInstruction (p : Program) (n : Nat) (ins : Instruction) : Except FormatError Unit := do
  if ¬ ins.opcode.arities.contains ins.inputs.length then
    throw (.operandCount n ins.opcode ins.inputs.length)
  if ins.components = 0 ∨ ins.opcode.maxComponents < ins.components then
    throw (.componentCount n ins.components)
  p.checkInputs n ins 0 ins.inputs
  if ins.output.index.isSome then throw (.indexedOutput n)
  match ins.output.bank with
  | .output | .temp => return ()
  | bank => throw (.readOnlyOutput n bank)

/-- Check instructions, the first being the `n`-th. -/
def checkInstructions (p : Program) : Nat → List Instruction → Except FormatError Unit
  | _, [] => .ok ()
  | n, ins :: rest => do
    p.checkInstruction n ins
    p.checkInstructions (n + 1) rest

/-- Check that a writable bank fits the register file. -/
def checkBank (p : Program) (bank : Bank) : Except FormatError Unit :=
  if componentLimit < p.bankEnd bank then
    .error (.bankTooLarge bank (p.bankEnd bank) componentLimit)
  else .ok ()

/-- Check a program. -/
def check (p : Program) : Except FormatError Unit := do
  p.checkInstructions 0 p.instructions
  p.checkBank .output
  p.checkBank .temp

end ShaderEffect.Program
