import ShaderEffect.Bytes.Region
import ShaderEffect.ConstantTable.Basic

/-!
# Reading constant tables

Offsets in a table count from its first byte. A header is followed by records of fixed length, which
point to names and shapes.
-/

namespace ShaderEffect.ConstantTable

open Bytes

/-- The length of the header. -/
def headerLength : Nat := 28

/-- The length of a constant's record. -/
def recordLength : Nat := 20

/-- The length of a shape's record. -/
def shapeLength : Nat := 16

/-- The text at `offset`, where zero means that there is none. -/
def optionalText (data : Bytes) (offset : Nat) (field : String) :
    Except FormatError (Option String) :=
  if offset = 0 then .ok none
  else do return some (← data.text offset field)

/-- The shape recorded at `offset`, where zero means that there is none. -/
def readShape (data : Bytes) (offset : Nat) : Except FormatError (Option ConstantShape) := do
  if offset = 0 then return none
  if data.size < offset + shapeLength then
    throw (.truncated "ctab type info" offset shapeLength data.size)
  let classNumber ← data.half offset "ctab type class"
  let typeNumber ← data.half (offset + 2) "ctab type"
  let some cls := ParameterClass.ofNumber? classNumber.toNat
    | throw (.unknownConstantClass classNumber.toNat)
  let some type := ParameterType.ofNumber? typeNumber.toNat
    | throw (.unknownConstantType typeNumber.toNat)
  let rows ← data.half (offset + 4) "ctab type rows"
  let columns ← data.half (offset + 6) "ctab type columns"
  let elements ← data.half (offset + 8) "ctab type elements"
  return some ⟨cls, type, rows.toNat, columns.toNat, elements.toNat⟩

/-- The constant whose record stands at `base`. -/
def readConstant (data : Bytes) (base : Nat) : Except FormatError Constant := do
  let nameOffset ← data.word base "ctab constant name offset"
  let setNumber ← data.half (base + 4) "ctab register set"
  let index ← data.half (base + 6) "ctab register index"
  let count ← data.half (base + 8) "ctab register count"
  let shapeOffset ← data.word (base + 12) "ctab type info offset"
  let some set := RegisterSet.ofNumber? setNumber.toNat
    | throw (.unknownRegisterSet setNumber.toNat)
  let name ← data.text nameOffset.toNat "ctab constant name"
  let shape ← readShape data shapeOffset.toNat
  return ⟨name, set, index.toNat, count.toNat, shape⟩

/-- `count` constants whose records start at `base`. -/
def readConstants (data : Bytes) : Nat → Nat → Except FormatError (List Constant)
  | 0, _ => .ok []
  | count + 1, base => do
    let c ← readConstant data base
    return c :: (← readConstants data count (base + recordLength))

/-- Read a constant table. -/
def decode (data : Bytes) : Except FormatError ConstantTable := do
  if data.size < headerLength then
    throw (.truncated "constant table header" 0 headerLength data.size)
  let creator ← data.word 4 "ctab creator offset"
  let count ← data.word 12 "ctab constant count"
  let base ← data.word 16 "ctab constant info offset"
  let target ← data.word 24 "ctab target offset"
  let length := count.toNat * recordLength
  if data.size < base.toNat + length then
    throw (.truncated "ctab constant info" base.toNat length data.size)
  let constants ← readConstants data count.toNat base.toNat
  return {
    creator := ← optionalText data creator.toNat "ctab creator"
    target := ← optionalText data target.toNat "ctab target"
    constants }

end ShaderEffect.ConstantTable
