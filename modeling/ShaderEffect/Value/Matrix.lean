import ShaderEffect.Value.Shape

/-!
# Matrices

A matrix stored by rows is read and written as it is or transposed, cell by cell, with zeros around
its own cells. In an array only the array as a whole is looked at, and not the shape of each
element; whether the caller's matrices are in a row or pointed to makes no difference.
-/

namespace ShaderEffect

/-- Whether a matrix is exchanged as it is or transposed. -/
inductive Orientation where
  | straight
  | transposed
deriving DecidableEq

namespace Orientation

/-- The entry of a matrix that goes with the cell in a row and a column. -/
def entry (o : Orientation) (m : Matrix4) (row column : Fin 4) : Single :=
  match o with
  | .straight => (m.get row).get column
  | .transposed => (m.get column).get row

/-- Replace the entry of a matrix that goes with the cell in a row and a column. -/
def setEntry (o : Orientation) (m : Matrix4) (row column : Fin 4) (x : Single) : Matrix4 :=
  match o with
  | .straight => m.setIfInBounds row ((m.get row).setIfInBounds column x)
  | .transposed => m.setIfInBounds column ((m.get column).setIfInBounds row x)

end Orientation

namespace Declaration

variable (d : Declaration) (o : Orientation)

/-- The rows and columns of the cells of a matrix, in row order, as far as four of each go. -/
def matrixCells : List (Fin 4 × Fin 4) :=
  ((List.finRange 4).take d.rows.toNat).flatMap fun row =>
    ((List.finRange 4).take d.columns.toNat).map fun column => (row, column)

/-- The place of the word of a cell. -/
def cellPlace (row column : Fin 4) : Nat := row * d.columns.toNat + column

/-- Read a matrix from words, cell by cell. -/
def readMatrix (words : List UInt32) : Matrix4 :=
  d.matrixCells.foldl (fun m (row, column) =>
    o.setEntry m row column (d.cell words row column).toFloat) Matrix4.zero

/-- Write a matrix over words, cell by cell; those that are no cell of it stay. -/
def writeMatrix (m : Matrix4) (words : List UInt32) : List UInt32 :=
  d.matrixCells.foldl (fun words (row, column) =>
    words.set (d.cellPlace row column) (Scalar.toWord d.type (.float (o.entry m row column)))) words

end Declaration

namespace EffectState

variable (s : EffectState) (o : Orientation)

/-- Read a matrix. -/
def getMatrix (h : Handle) : Except CallError Matrix4 :=
  s.readIf h Parameter.isMatrix .matrixShape fun p words => p.decl.readMatrix o words

/-- Write a matrix. -/
def setMatrix (h : Handle) (m : Matrix4) : Except CallError EffectState :=
  s.writeIf h Parameter.isMatrix .matrixShape fun p => p.decl.writeMatrix o m

/-! ### Arrays -/

/-- Read an element of an array of matrices. -/
def matrixAt (h : Handle) : Except CallError Matrix4 :=
  s.readIf h (fun _ => true) .matrixShape fun p words => p.decl.readMatrix o words

/-- Write an element of an array of matrices. -/
def storeMatrix (h : Handle) (m : Matrix4) : Except CallError EffectState :=
  s.writeIf h (fun _ => true) .matrixShape fun p => p.decl.writeMatrix o m

/-- Read the first elements of an array of matrices over a buffer, one by one. -/
def readMatrixArray (h : Handle) (buffer : List Matrix4) : InPlace (List Matrix4) :=
  match s.elements h buffer.length .matrixRows with
  | .error e => ⟨buffer, .error e⟩
  | .ok hs => readEach (s.matrixAt o) hs buffer

/-- Write the first elements of an array of matrices, one by one. -/
def writeMatrixArray (h : Handle) (values : List Matrix4) : InPlace EffectState :=
  match s.elements h values.length .matrixRows with
  | .error e => ⟨s, .error e⟩
  | .ok hs => writeEach (fun s => s.storeMatrix o) s (hs.zip values)

/-- Read the first `count` elements of an array of matrices. -/
def getMatrixArray (h : Handle) (count : Nat) : Except CallError (List Matrix4) :=
  (s.readMatrixArray o h (List.replicate count Matrix4.zero)).toExcept

/-- Write the first elements of an array of matrices. -/
def setMatrixArray (h : Handle) (values : List Matrix4) : Except CallError EffectState :=
  (s.writeMatrixArray o h values).toExcept

end EffectState

end ShaderEffect
