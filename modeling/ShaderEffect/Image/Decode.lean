import ShaderEffect.Bytes.Reader
import ShaderEffect.Image.Basic
import ShaderEffect.StateTable

/-!
# Reading effect images

A stored effect is a tag, the offset of the records, and a region of data. Records point into the
region to names, types and initial values. Depth and number of nodes are bounded: types may nest
sixteen deep, where a sampler inside a value counts twice, and one image may have `2 ^ 20` nodes,
since arrays of empty structs take no room in the data.
-/

namespace ShaderEffect.Image

/-- The first word of a stored effect. -/
def tag : UInt32 := 0xFEFF0901

/-- The length of what stands before the data region. -/
def preambleLength : Nat := 8

/-- One more than the depth to which types may nest. -/
def depthLimit : Nat := 17

/-- The most nodes of one image. -/
def nodeLimit : Nat := 2 ^ 20

/-! ### Names and types -/

/-- The name stored at `offset`: a length, then that many bytes; a length of zero stands for no
name. -/
def readName (offset : UInt32) : Reader (Option String) :=
  Reader.whole fun data => do
    let length ← data.word offset.toNat "name length"
    if length = 0 then return none
    let raw ← data.slice (offset.toNat + 4) length.toNat "name"
    return some (← Bytes.boundedText raw)

/-- A type: a declaration, and for a struct the types of its members. -/
inductive TypeDef where
  | mk (decl : Declaration) (members : List TypeDef)

/-- Whether class, type and shape of a declaration agree. -/
def isConsistent (d : Declaration) : Bool :=
  let small (n : UInt32) : Bool := 1 ≤ n && n ≤ 4
  match d.cls with
  | .scalar | .matrixRows | .matrixColumns => d.type.isNumeric && small d.rows && small d.columns
  | .vector => d.type.isNumeric && small d.columns
  | .object => !d.type.isNumeric && d.rows == 0 && d.columns == 0
  | .struct => d.type == .void

/-- The rows and columns that follow a declaration of the given class. -/
def readShape (cls : ParameterClass) : Reader (UInt32 × UInt32) :=
  match cls with
  | .vector => do return (1, ← Reader.word "vector columns")
  | .scalar | .matrixRows | .matrixColumns => do
    let rows ← Reader.word "parameter rows"
    return (rows, ← Reader.word "parameter columns")
  | .object | .struct => pure (0, 0)

/-- Read a type that may nest `depth - 1` levels further. -/
def readType : Nat → Reader TypeDef
  | 0 => throw .nestingTooDeep
  | depth + 1 => do
    let typeNumber ← Reader.word "parameter type"
    let classNumber ← Reader.word "parameter class"
    let some type := ParameterType.ofNumber? typeNumber.toNat
      | throw (.unknownType typeNumber.toNat)
    let some cls := ParameterClass.ofNumber? classNumber.toNat
      | throw (.unknownClass classNumber.toNat)
    let name ← readName (← Reader.word "parameter name offset")
    let semantic ← readName (← Reader.word "parameter semantic offset")
    let elements ← Reader.word "parameter element count"
    let (rows, columns) ← readShape cls
    let members ← match cls with
      | .struct => do
        let count ← Reader.word "struct member count"
        Reader.checkCount count 20 "struct member"
        Reader.times count.toNat (readType depth)
      | _ => pure []
    let decl : Declaration := { name, semantic, cls, type, rows, columns, elements }
    if isConsistent decl then return .mk decl members
    throw (.inconsistentType cls type rows.toNat columns.toNat)

/-! ### Values -/

/-- A reader that also knows how many nodes it may still create. -/
abbrev NodeReader := StateT Nat Reader

/-- Count one node. -/
def takeNode : NodeReader Unit := fun budget =>
  match budget with
  | 0 => throw .tooManyNodes
  | left + 1 => pure ((), left)

/-- Read something in the same region at another position; the position here stays. -/
def NodeReader.elsewhere {α : Type} (position : Nat) (reader : NodeReader α) : NodeReader α :=
  fun budget => Reader.elsewhere position (reader budget)

/-- Read state assignments, given how their values are read. -/
def readStates (readValue : UInt32 → UInt32 → NodeReader Node) (count : UInt32) :
    NodeReader (List (Assignment Node)) := do
  Reader.checkCount count 16 "state"
  repeated (do
    let operation ← Reader.word "state operation"
    if StateTable.size ≤ operation.toNat then throw (.operationOutOfRange operation.toNat)
    let index ← Reader.word "state index"
    let typeOffset ← Reader.word "state typedef offset"
    let valueOffset ← Reader.word "state value offset"
    return ⟨operation, index, ← readValue typeOffset valueOffset⟩) count.toNat []

/-- Read a value of a type given how one such value that is no array is read. -/
def expand (d : Declaration) (readOne : NodeReader Node) : NodeReader Node :=
  if d.elements = 0 then readOne
  else do
    takeNode
    return .array d (← repeated readOne d.elements.toNat [])

/-- Read an object value. -/
def readObject (objectCount : UInt32) (d : Declaration) : NodeReader Node := do
  let id ← Reader.word "object id"
  if objectCount ≤ id then throw (.objectOutOfRange id.toNat objectCount.toNat)
  return if d.type = .unsupported then .unsupported d else .object d id

section

variable (objectCount : UInt32) (readSampler : NodeReader (List (Assignment Node)))

mutual

/-- Read a value as if its type were no array. -/
def readOne : TypeDef → NodeReader Node
  | .mk d members => do
    takeNode
    match d.cls with
    | .struct => return .struct d.element (← readMembers members)
    | .object =>
      if d.type.isSampler then return .sampler d.element (← readSampler)
      else readObject objectCount d.element
    | _ =>
      return .words d.element (← repeated (Reader.word "parameter value") d.wordCount [])

/-- Read the members of a struct one after the other. -/
def readMembers : List TypeDef → NodeReader (List Node)
  | [] => pure []
  | .mk d members :: rest => do
    let node ← expand d (readOne (.mk d members))
    return node :: (← readMembers rest)

end

/-- Read a value of a type. -/
def readValue (type : TypeDef) : NodeReader Node :=
  match type with
  | .mk d _ => expand d (readOne objectCount readSampler type)

end

/-- Read the type at one offset and the value at another. The states of a sampler are one level
deeper, and their values one more. -/
def readTyped (objectCount : UInt32) : Nat → UInt32 → UInt32 → NodeReader Node
  | 0, _, _ => throw .nestingTooDeep
  | 1, typeOffset, valueOffset => read 1 typeOffset valueOffset fun _ _ => throw .nestingTooDeep
  | depth + 2, typeOffset, valueOffset =>
    read (depth + 2) typeOffset valueOffset (readTyped objectCount depth)
where
  /-- Read a type and a value, given how the values of sampler states are read. -/
  read (depth : Nat) (typeOffset valueOffset : UInt32)
      (inner : UInt32 → UInt32 → NodeReader Node) : NodeReader Node := do
    let type ← Reader.elsewhere typeOffset.toNat (readType depth)
    NodeReader.elsewhere valueOffset.toNat
      (readValue objectCount (do readStates inner (← Reader.word "sampler state count")) type)

/-! ### Records -/

section

variable (objectCount : UInt32)

/-- Read annotations. -/
def readAnnotations (count : UInt32) : NodeReader (List Node) := do
  Reader.checkCount count 8 "annotation"
  repeated (do
    let typeOffset ← Reader.word "annotation typedef offset"
    let valueOffset ← Reader.word "annotation value offset"
    readTyped objectCount depthLimit typeOffset valueOffset) count.toNat []

/-- Read a parameter: its annotations come before its own value. -/
def readParameter : NodeReader ParameterRecord := do
  let typeOffset ← Reader.word "parameter typedef offset"
  let valueOffset ← Reader.word "parameter value offset"
  let flags ← Reader.word "parameter flags"
  let annotationCount ← Reader.word "annotation count"
  let annotations ← readAnnotations objectCount annotationCount
  let node ← readTyped objectCount depthLimit typeOffset valueOffset
  return ⟨flags, node, annotations⟩

/-- Read a pass; the values of its states are one level deep. -/
def readPass : NodeReader PassRecord := do
  let name ← readName (← Reader.word "pass name offset")
  let annotationCount ← Reader.word "pass annotation count"
  let stateCount ← Reader.word "pass state count"
  let annotations ← readAnnotations objectCount annotationCount
  let states ← readStates (readTyped objectCount (depthLimit - 1)) stateCount
  return ⟨name, annotations, states⟩

/-- Read a technique. -/
def readTechnique : NodeReader TechniqueRecord := do
  let name ← readName (← Reader.word "technique name offset")
  let annotationCount ← Reader.word "technique annotation count"
  let passCount ← Reader.word "pass count"
  let annotations ← readAnnotations objectCount annotationCount
  Reader.checkCount passCount 12 "pass"
  let passes ← repeated (readPass objectCount) passCount.toNat []
  return ⟨name, annotations, passes⟩

/-- Read data attached to an object. -/
def readObjectData : Reader ObjectData := do
  let id ← Reader.word "object id"
  if objectCount ≤ id then throw (.objectDataOutOfRange id.toNat objectCount.toNat)
  let size ← Reader.word "object data size"
  return ⟨id, ← Reader.paddedSlice size.toNat "object data"⟩

end

/-- Read data attached to a state. -/
def readResource : Reader Resource := do
  let technique ← Reader.word "resource technique index"
  let index ← Reader.word "resource index"
  let element ← Reader.word "resource element index"
  let state ← Reader.word "resource state index"
  let usage ← Reader.word "resource usage"
  let size ← Reader.word "resource size"
  let data ← Reader.paddedSlice size.toNat "resource data"
  return { technique, index, element, state, usage, data }

/-- Read all records, from the position where they start. -/
def readRecords : Reader Image := do
  let parameterCount ← Reader.word "parameter count"
  let techniqueCount ← Reader.word "technique count"
  let _ ← Reader.word "reserved header field"
  let objectCount ← Reader.word "object count"
  Reader.checkCount parameterCount 16 "parameter"
  Reader.checkCount techniqueCount 12 "technique"
  let nodes : NodeReader (List ParameterRecord × List TechniqueRecord) := do
    let parameters ← repeated (readParameter objectCount) parameterCount.toNat []
    let techniques ← repeated (readTechnique objectCount) techniqueCount.toNat []
    return (parameters, techniques)
  let ((parameters, techniques), _) ← nodes nodeLimit
  let dataCount ← Reader.word "object data count"
  let resourceCount ← Reader.word "resource count"
  Reader.checkCount dataCount 8 "object data"
  Reader.checkCount resourceCount 24 "resource"
  let objectData ← Reader.times dataCount.toNat (readObjectData objectCount)
  let resources ← Reader.times resourceCount.toNat readResource
  return { parameters, techniques, objectCount, objectData, resources }

/-- Read an effect image. -/
def decode (stored : Bytes) : Except FormatError Image := do
  let found ← stored.word 0 "effect tag"
  if found ≠ tag then throw (.badTag found tag)
  let start ← stored.word 4 "effect header offset"
  readRecords.runAt (stored.extract preambleLength stored.size) start.toNat

end ShaderEffect.Image
