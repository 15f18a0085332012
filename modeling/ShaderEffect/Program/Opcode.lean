/-!
# Opcodes and register banks

The operations of an expression program and the four banks of registers its operands name. Both
are numbered in code.
-/

namespace ShaderEffect

/-- An operation. -/
inductive Opcode where
  | mov
  | neg
  | rcp
  | frc
  | exp
  | log
  | rsq
  | sin
  | cos
  | asin
  | acos
  | atan
  | min
  | max
  | lt
  | ge
  | add
  | mul
  | atan2
  | div
  | cmp
  | movc
  | dot
  | dotSwiz
deriving DecidableEq, Inhabited

namespace Opcode

/-- The opcode with the given number. -/
def ofNumber? : Nat → Option Opcode
  | 0x100 => some .mov
  | 0x101 => some .neg
  | 0x103 => some .rcp
  | 0x104 => some .frc
  | 0x105 => some .exp
  | 0x106 => some .log
  | 0x107 => some .rsq
  | 0x108 => some .sin
  | 0x109 => some .cos
  | 0x10A => some .asin
  | 0x10B => some .acos
  | 0x10C => some .atan
  | 0x200 => some .min
  | 0x201 => some .max
  | 0x202 => some .lt
  | 0x203 => some .ge
  | 0x204 => some .add
  | 0x205 => some .mul
  | 0x206 => some .atan2
  | 0x208 => some .div
  | 0x300 => some .cmp
  | 0x301 => some .movc
  | 0x500 => some .dot
  | 0x70E => some .dotSwiz
  | _ => none

/-- The number of an opcode. -/
def number : Opcode → Nat
  | .mov => 0x100
  | .neg => 0x101
  | .rcp => 0x103
  | .frc => 0x104
  | .exp => 0x105
  | .log => 0x106
  | .rsq => 0x107
  | .sin => 0x108
  | .cos => 0x109
  | .asin => 0x10A
  | .acos => 0x10B
  | .atan => 0x10C
  | .min => 0x200
  | .max => 0x201
  | .lt => 0x202
  | .ge => 0x203
  | .add => 0x204
  | .mul => 0x205
  | .atan2 => 0x206
  | .div => 0x208
  | .cmp => 0x300
  | .movc => 0x301
  | .dot => 0x500
  | .dotSwiz => 0x70E

/-- The operand counts an opcode accepts. A swizzled dot product lists the components of both
vectors, three or four of each. -/
def arities : Opcode → List Nat
  | .mov | .neg | .rcp | .frc | .exp | .log | .rsq | .sin | .cos | .asin | .acos | .atan => [1]
  | .min | .max | .lt | .ge | .add | .mul | .atan2 | .div | .dot => [2]
  | .cmp | .movc => [3]
  | .dotSwiz => [6, 8]

/-- Whether all lanes are summed into a single component. -/
def isReduction : Opcode → Bool
  | .dot | .dotSwiz => true
  | _ => false

/-- The most components one instruction may have. -/
def maxComponents : Opcode → Nat
  | .dotSwiz => 1
  | _ => 4

/-- The name of an opcode. -/
def name : Opcode → String
  | .mov => "Mov"
  | .neg => "Neg"
  | .rcp => "Rcp"
  | .frc => "Frc"
  | .exp => "Exp"
  | .log => "Log"
  | .rsq => "Rsq"
  | .sin => "Sin"
  | .cos => "Cos"
  | .asin => "Asin"
  | .acos => "Acos"
  | .atan => "Atan"
  | .min => "Min"
  | .max => "Max"
  | .lt => "Lt"
  | .ge => "Ge"
  | .add => "Add"
  | .mul => "Mul"
  | .atan2 => "Atan2"
  | .div => "Div"
  | .cmp => "Cmp"
  | .movc => "Movc"
  | .dot => "Dot"
  | .dotSwiz => "DotSwiz"

theorem ofNumber?_number (op : Opcode) : ofNumber? op.number = some op := by
  cases op <;> rfl

end Opcode

/-- A bank of registers. -/
inductive Bank where
  /-- Double-precision constants of the program. -/
  | literal
  /-- Values gathered from parameters. -/
  | input
  /-- Results. -/
  | output
  /-- Scratch registers. -/
  | temp
deriving DecidableEq, Inhabited

namespace Bank

/-- The bank with the given number. -/
def ofNumber? : Nat → Option Bank
  | 1 => some .literal
  | 2 => some .input
  | 4 => some .output
  | 7 => some .temp
  | _ => none

/-- The number of a bank. -/
def number : Bank → Nat
  | .literal => 1
  | .input => 2
  | .output => 4
  | .temp => 7

/-- The name of a bank. -/
def name : Bank → String
  | .literal => "Literal"
  | .input => "Input"
  | .output => "Output"
  | .temp => "Temp"

theorem ofNumber?_number (b : Bank) : ofNumber? b.number = some b := by
  cases b <;> rfl

end Bank

end ShaderEffect
