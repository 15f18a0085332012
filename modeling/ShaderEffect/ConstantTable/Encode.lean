import ShaderEffect.Bytes.Word
import ShaderEffect.ConstantTable.Basic

/-!
# Writing constant tables

A table is written from descriptions of its entries: header, records, shapes, target, names.
-/

namespace ShaderEffect

/-- The shape of an entry as it is stored, by numbers. -/
structure StoredShape where
  cls : UInt16
  type : UInt16
  rows : UInt16
  columns : UInt16
  elements : UInt16
deriving DecidableEq

/-- What a constant table is to say about one constant. -/
structure ConstantEntry where
  name : String
  set : RegisterSet
  index : UInt16
  count : UInt16
  shape : Option StoredShape
deriving DecidableEq

namespace ConstantEntry

/-- An entry of one component, typed as its register set suggests. -/
def ofSet (name : String) (set : RegisterSet) (index count : UInt16) : ConstantEntry :=
  let (cls, type) : UInt16 × UInt16 := match set with
    | .sampler => (4, 12)
    | .bool => (0, 1)
    | .int4 => (0, 2)
    | .float4 => (0, 3)
  ⟨name, set, index, count, some ⟨cls, type, 1, 1, 1⟩⟩

/-- A vector of four floats, or an array of `count` of them. -/
def float4 (name : String) (index count : UInt16) : ConstantEntry :=
  ⟨name, .float4, index, count, some ⟨1, 3, 1, 4, max count 1⟩⟩

/-- The entry as a float matrix, stored by columns or by rows. -/
def matrix (e : ConstantEntry) (byColumns : Bool) (rows columns : UInt16) : ConstantEntry :=
  { e with shape := some ⟨if byColumns then 3 else 2, 3, rows, columns, 1⟩ }

/-- The entry without a shape. -/
def untyped (e : ConstantEntry) : ConstantEntry := { e with shape := none }

/-- The bytes of the name. -/
def nameBytes (e : ConstantEntry) : List UInt8 := e.name.toUTF8.data.toList

end ConstantEntry

namespace ConstantTable

open Word

/-- The target every written table names, zero-padded. -/
def writtenTarget : List UInt8 := "vs_2_0".toUTF8.data.toList ++ [0, 0]

/-- The records of entries, given where the next shape and the next name will stand. -/
def recordBytes : List ConstantEntry → Nat → Nat → List UInt8
  | [], _, _ => []
  | e :: rest, shapeOffset, nameOffset =>
    let shape := if e.shape.isSome then UInt32.ofNat shapeOffset else 0
    let nextShape := if e.shape.isSome then shapeOffset + 16 else shapeOffset
    bytes (UInt32.ofNat nameOffset) ++ halfBytes (UInt16.ofNat e.set.number) ++
      halfBytes e.index ++ halfBytes e.count ++ halfBytes 0 ++ bytes shape ++ bytes 0 ++
      recordBytes rest nextShape (nameOffset + (e.nameBytes.length + 1))

/-- A stored shape. -/
def shapeBytes (s : StoredShape) : List UInt8 :=
  [s.cls, s.type, s.rows, s.columns, s.elements, 0].flatMap halfBytes ++ bytes 0

/-- Write a constant table. -/
def encode (entries : List ConstantEntry) : List UInt8 :=
  let shapes := entries.filterMap (·.shape)
  let shapesOffset := 28 + entries.length * 20
  let targetOffset := shapesOffset + shapes.length * 16
  let namesOffset := targetOffset + writtenTarget.length
  listBytes [28, 0, 0xFFFE0200, UInt32.ofNat entries.length, 28, 0, UInt32.ofNat targetOffset] ++
    recordBytes entries shapesOffset namesOffset ++ shapes.flatMap shapeBytes ++
    writtenTarget ++ entries.flatMap fun e => e.nameBytes ++ [0]

end ConstantTable

end ShaderEffect
