import ShaderEffect.Effect.Basic
import ShaderEffect.Layout.Cell
import ShaderEffect.Program.Run

/-!
# Registers

Values are uploaded as registers of four numbers, leaf by leaf in tree order. A leaf takes one
register per row, or per column if it is a matrix and the constant it is uploaded to is laid out by
columns. Boolean registers hold one value each, and every cell takes one. What a constant has no
room for is cut off, and what is missing is zero.

The input bank of a program is filled from the parameters its inputs are bound to, each in the float
registers that its entry names. A later entry overwrites an earlier one.
-/

namespace ShaderEffect

/-- A register before conversion to its element type. -/
abbrev Register := Vector Scalar 4

/-- The register of zeros. -/
def Register.zero : Register := Vector.replicate 4 .zero

/-! ### Leaves -/

namespace Node

mutual

/-- The declarations of the numeric leaves of a value, in tree order. -/
def leaves : Node → List Declaration
  | .array _ elements => leavesOf elements
  | .struct _ members => leavesOf members
  | .words d _ => [d]
  | .object .. | .sampler .. | .unsupported _ => []

/-- The declarations of the numeric leaves of several values. -/
def leavesOf : List Node → List Declaration
  | [] => []
  | n :: rest => n.leaves ++ leavesOf rest

end

end Node

/-- A numeric leaf with its words. -/
structure Leaf where
  decl : Declaration
  words : List UInt32

/-- Give each leaf its words. -/
def splitLeaves : List Declaration → List UInt32 → List Leaf
  | [], _ => []
  | d :: rest, words => ⟨d, words.take d.wordCount⟩ :: splitLeaves rest (words.drop d.wordCount)

namespace Declaration

/-- Whether a value is a matrix. -/
def isMatrix (d : Declaration) : Bool := d.cls == .matrixRows || d.cls == .matrixColumns

end Declaration

namespace Leaf

/-- The register of a row. -/
def row (l : Leaf) (i : Nat) : Register :=
  Vector.ofFn fun j => if j < l.decl.columns.toNat then l.decl.cell l.words i j else .zero

/-- The register of a column. -/
def column (l : Leaf) (j : Nat) : Register :=
  Vector.ofFn fun i => if i < l.decl.rows.toNat then l.decl.cell l.words i j else .zero

/-- The registers of a leaf. -/
def registers (byColumns : Bool) (l : Leaf) : List Register :=
  if byColumns && l.decl.isMatrix then (List.range l.decl.columns.toNat).map l.column
  else (List.range l.decl.rows.toNat).map l.row

/-- The boolean registers of a leaf. -/
def flags (l : Leaf) : List Bool := l.words.map fun w => (Scalar.ofWord l.decl.type w).toBool

end Leaf

/-- Cut a list off or extend it to a length. -/
def resize {α : Type} (n : Nat) (fill : α) (xs : List α) : List α :=
  xs.take n ++ List.replicate (n - xs.length) fill

namespace LinkedEffect

variable (e : LinkedEffect) (m : Memory)

/-- The numeric leaves of a parameter. -/
def leaves (h : Handle) : List Leaf :=
  match e.tree.node? h with
  | some p => splitLeaves p.node.leaves (e.words m h)
  | none => []

/-- The registers of a parameter for a constant. -/
def registers (h : Handle) (c : Constant) : List Register :=
  resize c.count Register.zero ((e.leaves m h).flatMap (Leaf.registers c.isColumnMajor))

/-- The registers of a parameter as floats. -/
def floatRegisters (h : Handle) (c : Constant) : List Single :=
  (e.registers m h c).flatMap fun r => r.toList.map Scalar.toFloat

/-- The registers of a parameter as integers. -/
def intRegisters (h : Handle) (c : Constant) : List Int32 :=
  (e.registers m h c).flatMap fun r => r.toList.map Scalar.toInt

/-- The boolean registers of a parameter. -/
def boolRegisters (h : Handle) (c : Constant) : List Bool :=
  resize c.count false ((e.leaves m h).flatMap Leaf.flags)

/-! ### Inputs of programs -/

/-- Put the registers of one input in their place; samplers have none. -/
def placeInput (table : Array Single) (input : Constant × Option Handle) : Array Single :=
  match input with
  | (c, some h) =>
    if c.set = .sampler then table
    else Slice.overwriteFrom table (c.index * 4) (e.floatRegisters m h c)
  | (_, none) => table

/-- The input bank of a program. -/
def inputBank (p : BoundProgram) : Array Single :=
  p.inputs.foldl (e.placeInput m) (Array.replicate p.program.inputLength .zero)

/-- Run a program on the values of its inputs. -/
def run (p : BoundProgram) : Array Single := p.program.run (e.inputBank m p)

/-- The first number a program computes. -/
def runFirst (p : BoundProgram) : Single := ((e.run m p)[0]?).getD .zero

/-- Whether an input of a program was written after the given update. -/
def inputsDirty (p : BoundProgram) (since : Nat) : Bool :=
  p.inputs.any fun (_, h) => match h with
    | some h => e.isDirty m h since
    | none => false

end LinkedEffect

end ShaderEffect
