import ShaderEffect.Device.Lighting
import ShaderEffect.Image.Basic
import ShaderEffect.Number.Scalar

/-!
# Cells of numeric values

The words of a numeric value are its cells in row order. A cell outside the words reads as zero. A
value is read as a matrix of four rows and four columns, with zeros around its own cells.
-/

namespace ShaderEffect

/-- Replace the first values of a list, as far as it reaches. -/
def overlay {α : Type} (new old : List α) : List α :=
  new.take old.length ++ old.drop new.length

namespace Matrix4

/-- The matrix with rows and columns exchanged. -/
def transpose (m : Matrix4) : Matrix4 :=
  Vector.ofFn fun row => Vector.ofFn fun column => m[column][row]

end Matrix4

namespace Declaration

/-- The cell in a row and a column. -/
def cell (d : Declaration) (words : List UInt32) (row column : Nat) : Scalar :=
  match words[row * d.columns.toNat + column]? with
  | some w => Scalar.ofWord d.type w
  | none => .zero

/-- Whether a value of the shape has a cell in a row and a column. -/
def hasCell (d : Declaration) (row column : Nat) : Bool :=
  row < d.rows.toNat && column < d.columns.toNat

/-- The matrix that words hold. -/
def matrix (d : Declaration) (words : List UInt32) : Matrix4 :=
  Vector.ofFn fun row => Vector.ofFn fun column =>
    if d.hasCell row column then (d.cell words row column).toFloat else .zero

end Declaration

end ShaderEffect
