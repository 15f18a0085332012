import ShaderEffect.Number.Single
import ShaderEffect.Program.Basic

/-!
# Running programs

Instructions run one after the other and their components lane by lane, so a later lane sees what an
earlier one stored. Operands are read in double precision, results are stored in single precision.
A read outside a bank gives zero and a write outside changes nothing; running therefore never fails.
-/

namespace ShaderEffect

/-! ### Operations -/

namespace Opcode

/-- An operation on one number. -/
def unary (op : Opcode) (a : Double) : Double :=
  match op with
  | .mov => a
  | .neg => a.neg
  | .rcp => Double.div .one a
  | .frc => a.sub (a.map Float.floor)
  | .exp => a.map Float.exp2
  | .log => if a.abs.isZero then .negativeInfinity else a.abs.map Float.log2
  | .rsq => if a.abs.isZero then .infinity else Double.div .one (a.abs.map Float.sqrt)
  | .sin => a.map Float.sin
  | .cos => a.map Float.cos
  | .asin => a.arc Float.asin
  | .acos => a.arc Float.acos
  | .atan => a.map Float.atan
  | _ => .invalid

/-- An operation on two numbers. Minimum and maximum keep the first operand unless the second one
compares beyond it. -/
def binary (op : Opcode) (a b : Double) : Double :=
  match op with
  | .min => if b.lt a then b else a
  | .max => if a.lt b then b else a
  | .lt => if a.lt b then .one else .zero
  | .ge => if b.le a then .one else .zero
  | .add => a.add b
  | .mul => a.mul b
  | .atan2 => .angle a b
  | .div => a.div b
  | _ => .invalid

/-- A choice between two numbers by a third. -/
def ternary (op : Opcode) (a b c : Double) : Double :=
  match op with
  | .cmp => if Double.zero.le a then b else c
  | .movc => if a.isZero then c else b
  | _ => .invalid

end Opcode

/-! ### Register banks -/

/-- The contents of the four banks. -/
structure Registers where
  literals : Array Double
  inputs : Array Single
  outputs : Array Single
  temps : Array Single

namespace Registers

/-- The component of a bank, if it exists. -/
def load? (regs : Registers) (bank : Bank) (i : Nat) : Option Double :=
  match bank with
  | .literal => regs.literals[i]?
  | .input => regs.inputs[i]?.map Single.widen
  | .output => regs.outputs[i]?.map Single.widen
  | .temp => regs.temps[i]?.map Single.widen

/-- The component of a bank, zero outside. -/
def load (regs : Registers) (bank : Bank) (i : Nat) : Double :=
  (regs.load? bank i).getD .zero

/-- One past the greatest relative address. -/
def addressLimit : Int := 2 ^ 63

/-- The component an operand starts at. An index register counts registers, rounded to the nearest
with a half to the even one; without a number in it, or out of range, there is no address. -/
def address? (regs : Registers) (operand : Operand) : Option Nat :=
  match operand.index with
  | none => some operand.offset
  | some r =>
    match (regs.load r.bank r.offset).roundEven? with
    | none => none
    | some i =>
      let address := i * 4 + operand.offset
      if 0 ≤ address ∧ address < addressLimit then some address.toNat else none

/-- The value of a lane of an operand, zero if there is none. -/
def read (regs : Registers) (operand : Operand) (lane : Nat) : Double :=
  match regs.address? operand with
  | some address => regs.load operand.bank (address + lane)
  | none => .zero

/-- Store a lane of an operand. -/
def write (regs : Registers) (operand : Operand) (lane : Nat) (value : Double) : Registers :=
  match operand.bank with
  | .output =>
    { regs with outputs := regs.outputs.setIfInBounds (operand.offset + lane) value.narrow }
  | .temp => { regs with temps := regs.temps.setIfInBounds (operand.offset + lane) value.narrow }
  | .literal | .input => regs

end Registers

/-! ### Instructions -/

namespace Instruction

open Registers

/-- The sum of products, added up from the left. -/
def sumOfProducts (pairs : List (Double × Double)) : Double :=
  pairs.foldl (fun sum pair => sum.add (pair.1.mul pair.2)) .negativeZero

/-- The products a reduction sums: lanes of two operands, or the first half of the operands with
the second half. -/
def products (ins : Instruction) (regs : Registers) : List (Double × Double) :=
  match ins.opcode with
  | .dotSwiz =>
    let values := ins.inputs.map (regs.read · 0)
    (values.take (values.length / 2)).zip (values.drop (values.length / 2))
  | _ =>
    match ins.inputs with
    | [a, b] => (List.range ins.components).map fun lane => (regs.read a lane, regs.read b lane)
    | _ => []

/-- The value of one lane of an operation that works lane by lane. -/
def laneValue (ins : Instruction) (regs : Registers) (lane : Nat) : Double :=
  let first (a : Operand) : Double := regs.read a (if ins.scalar then 0 else lane)
  match ins.inputs with
  | [a] => ins.opcode.unary (first a)
  | [a, b] => ins.opcode.binary (first a) (regs.read b lane)
  | [a, b, c] => ins.opcode.ternary (first a) (regs.read b lane) (regs.read c lane)
  | _ => .invalid

/-- Run one instruction. -/
def run (ins : Instruction) (regs : Registers) : Registers :=
  if ins.opcode.isReduction then regs.write ins.output 0 (sumOfProducts (ins.products regs))
  else
    (List.range ins.components).foldl
      (fun regs lane => regs.write ins.output lane (ins.laneValue regs lane)) regs

end Instruction

/-! ### Programs -/

namespace Program

/-- The banks before the first instruction: scratch registers are zero. -/
def start (p : Program) (inputs outputs : Array Single) : Registers where
  literals := p.literals.toArray
  inputs := inputs
  outputs := outputs
  temps := Array.replicate p.tempLength .zero

/-- Run a program on given inputs, over the given outputs. -/
def evaluate (p : Program) (inputs outputs : Array Single) : Array Single :=
  (p.instructions.foldl (fun regs ins => ins.run regs) (p.start inputs outputs)).outputs

/-- Run a program on given inputs, over zeros. -/
def run (p : Program) (inputs : Array Single) : Array Single :=
  p.evaluate inputs (Array.replicate p.outputLength .zero)

end Program

end ShaderEffect
