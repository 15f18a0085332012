import ShaderEffect.Image.Decode

/-!
# Writing effect images

An effect is written from a description: types by numbers, values as words, techniques and attached
data. Names, types and values go into the data region first, each where the region then ends;
records that point to them follow.
-/

namespace ShaderEffect

/-- A type as it is to be written; class and type are numbers and need not agree. -/
inductive WrittenType where
  | mk (type cls : UInt32) (name semantic : Option String) (elements rows columns : UInt32)
    (members : List WrittenType)

mutual

/-- A part of an initial value: a word, or the states of a sampler. -/
inductive WrittenPart where
  | word (w : UInt32)
  | sampler (states : List WrittenState)

/-- A state assignment as it is to be written. -/
inductive WrittenState where
  | mk (operation index : UInt32) (type : WrittenType) (value : List WrittenPart)

end

/-- An initial value: its leaves in tree order. -/
abbrev WrittenValue := List WrittenPart

/-- An annotation as it is to be written. -/
structure WrittenNote where
  type : WrittenType
  value : WrittenValue

/-- A parameter as it is to be written. -/
structure WrittenParameter where
  type : WrittenType
  value : WrittenValue
  flags : UInt32
  notes : List WrittenNote

/-- A pass as it is to be written. -/
structure WrittenPass where
  name : Option String
  notes : List WrittenNote
  states : List WrittenState

/-- A technique as it is to be written. -/
structure WrittenTechnique where
  name : Option String
  notes : List WrittenNote
  passes : List WrittenPass

/-- An effect as it is to be written. -/
structure WrittenEffect where
  parameters : List WrittenParameter
  techniques : List WrittenTechnique
  objectCount : UInt32
  objectData : List ObjectData
  resources : List Resource

namespace WrittenType

/-- A type of given numbers and no shape; an empty name means none. -/
def raw (type cls : UInt32) (name : String) : WrittenType :=
  .mk type cls (if name = "" then none else some name) none 0 0 0 []

/-- The type with another shape. -/
def shaped (t : WrittenType) (rows columns : UInt32) : WrittenType :=
  match t with
  | .mk type cls name semantic elements _ _ members =>
    .mk type cls name semantic elements rows columns members

/-- A single number. -/
def scalar (type : UInt32) (name : String) : WrittenType := (raw type 0 name).shaped 1 1

/-- A vector. -/
def vector (type : UInt32) (name : String) (columns : UInt32) : WrittenType :=
  (raw type 1 name).shaped 1 columns

/-- A matrix, stored by columns or by rows. -/
def matrix (byColumns : Bool) (type : UInt32) (name : String) (rows columns : UInt32) :
    WrittenType :=
  (raw type (if byColumns then 3 else 2) name).shaped rows columns

/-- An object. -/
def object (type : UInt32) (name : String) : WrittenType := raw type 4 name

/-- A struct. -/
def struct (name : String) (members : List WrittenType) : WrittenType :=
  match raw 0 5 name with
  | .mk type cls name semantic elements rows columns _ =>
    .mk type cls name semantic elements rows columns members

/-- An array of values of the type. -/
def array (t : WrittenType) (elements : UInt32) : WrittenType :=
  match t with
  | .mk type cls name semantic _ rows columns members =>
    .mk type cls name semantic elements rows columns members

/-- The type with a semantic. -/
def withSemantic (t : WrittenType) (semantic : String) : WrittenType :=
  match t with
  | .mk type cls name _ elements rows columns members =>
    .mk type cls name (some semantic) elements rows columns members

end WrittenType

namespace WrittenState

/-- An assignment of an integer. -/
def dword (operation index value : UInt32) : WrittenState :=
  .mk operation index (.scalar 2 "") [.word value]

/-- An assignment of a float. -/
def float (operation index : UInt32) (value : Single) : WrittenState :=
  .mk operation index (.scalar 3 "") [.word value.bits]

/-- An assignment of an object of the given type. -/
def object (operation index type id : UInt32) : WrittenState :=
  .mk operation index (.object type "") [.word id]

end WrittenState

namespace Image

open Word

/-- The data region as written so far, last byte first, with its length. -/
structure Region where
  reversed : List UInt8 := []
  length : Nat := 0

/-- A step of writing: it may add to the data region. -/
abbrev Writer := StateM Region

/-- The offset at which the data region ends now. -/
def here : Writer UInt32 := do return UInt32.ofNat (← get).length

/-- Add bytes to the data region. -/
def emit (bs : List UInt8) : Writer Unit :=
  modify fun region => ⟨bs.reverse ++ region.reversed, region.length + bs.length⟩

/-- Add words to the data region; the answer is where they stand. -/
def emitWords (ws : List UInt32) : Writer UInt32 := do
  let offset ← here
  emit (listBytes ws)
  return offset

/-- The bytes of a stored name, with its length in front and zeros behind. -/
def nameBytes (name : String) : List UInt8 :=
  let chars := name.toUTF8.data.toList ++ [0]
  bytes (UInt32.ofNat chars.length) ++ padded chars

/-- Add a name; no name stands at offset zero. -/
def emitName : Option String → Writer UInt32
  | none => pure 0
  | some name => do
    let offset ← here
    emit (nameBytes name)
    return offset

/-- The words of a shape. -/
def shapeWords (cls rows columns : UInt32) : List UInt32 :=
  if cls = 1 then [columns]
  else if cls = 0 ∨ cls = 2 ∨ cls = 3 then [rows, columns]
  else []

mutual

/-- The words of a type, whose names go into the data region at once. -/
def typeWords : WrittenType → Writer (List UInt32)
  | .mk type cls name semantic elements rows columns members => do
    let nameOffset ← emitName name
    let semanticOffset ← emitName semantic
    let head := [type, cls, nameOffset, semanticOffset, elements]
    if cls = 5 then
      return head ++ UInt32.ofNat members.length :: (← typesWords members)
    else return head ++ shapeWords cls rows columns

/-- The words of several types. -/
def typesWords : List WrittenType → Writer (List UInt32)
  | [] => pure []
  | t :: rest => do
    let first ← typeWords t
    return first ++ (← typesWords rest)

end

/-- Add a type. -/
def emitType (t : WrittenType) : Writer UInt32 := do emitWords (← typeWords t)

mutual

/-- The words of an initial value; what a sampler's states need goes into the data region at
once. -/
def valueWords : List WrittenPart → Writer (List UInt32)
  | [] => pure []
  | .word w :: rest => do return w :: (← valueWords rest)
  | .sampler states :: rest => do
    let inner ← statesWords states
    return UInt32.ofNat states.length :: inner ++ (← valueWords rest)

/-- The words of state assignments, each after its type and value were added. -/
def statesWords : List WrittenState → Writer (List UInt32)
  | [] => pure []
  | .mk operation index type value :: rest => do
    let typeOffset ← emitType type
    let valueOffset ← emitWords (← valueWords value)
    return operation :: index :: typeOffset :: valueOffset :: (← statesWords rest)

end

/-- Add an initial value. -/
def emitValue (v : WrittenValue) : Writer UInt32 := do emitWords (← valueWords v)

/-- The words of annotations. -/
def noteWords : List WrittenNote → Writer (List UInt32)
  | [] => pure []
  | note :: rest => do
    let typeOffset ← emitType note.type
    let valueOffset ← emitValue note.value
    return typeOffset :: valueOffset :: (← noteWords rest)

/-- The words of parameter records. -/
def parameterWords : List WrittenParameter → Writer (List UInt32)
  | [] => pure []
  | p :: rest => do
    let typeOffset ← emitType p.type
    let valueOffset ← emitValue p.value
    let notes ← noteWords p.notes
    return [typeOffset, valueOffset, p.flags, UInt32.ofNat p.notes.length] ++ notes ++
      (← parameterWords rest)

/-- The words of pass records. -/
def passWords : List WrittenPass → Writer (List UInt32)
  | [] => pure []
  | p :: rest => do
    let nameOffset ← emitName p.name
    let notes ← noteWords p.notes
    let states ← statesWords p.states
    return [nameOffset, UInt32.ofNat p.notes.length, UInt32.ofNat p.states.length] ++ notes ++
      states ++ (← passWords rest)

/-- The words of technique records. -/
def techniqueWords : List WrittenTechnique → Writer (List UInt32)
  | [] => pure []
  | t :: rest => do
    let nameOffset ← emitName t.name
    let notes ← noteWords t.notes
    let passes ← passWords t.passes
    return [nameOffset, UInt32.ofNat t.notes.length, UInt32.ofNat t.passes.length] ++ notes ++
      passes ++ (← techniqueWords rest)

/-- All records that point into the data region. The word at offset zero is the empty name. -/
def recordWords (e : WrittenEffect) : Writer (List UInt32) := do
  let _ ← emitWords [0]
  let parameters ← parameterWords e.parameters
  let techniques ← techniqueWords e.techniques
  return [UInt32.ofNat e.parameters.length, UInt32.ofNat e.techniques.length, 0, e.objectCount] ++
    parameters ++ techniques

/-- The record of data attached to an object. -/
def objectDataBytes (d : ObjectData) : List UInt8 :=
  listBytes [d.id, UInt32.ofNat d.data.size] ++ padded d.data.toList

/-- The record of data attached to a state. -/
def resourceBytes (r : Resource) : List UInt8 :=
  listBytes [r.technique, r.index, r.element, r.state, r.usage, UInt32.ofNat r.data.size] ++
    padded r.data.toList

/-- Write an effect. -/
def encode (e : WrittenEffect) : List UInt8 :=
  let (records, region) := (recordWords e).run {}
  listBytes [tag, UInt32.ofNat region.length] ++ region.reversed.reverse ++ listBytes records ++
    listBytes [UInt32.ofNat e.objectData.length, UInt32.ofNat e.resources.length] ++
    e.objectData.flatMap objectDataBytes ++ e.resources.flatMap resourceBytes

/-- The data of a state that takes its value from the parameter at `path`. -/
def referenceBytes (path : String) : List UInt8 := path.toUTF8.data.toList ++ [0]

/-- The data of a state that takes its value from the element of the array at `path` which a program
chooses. -/
def selectorBytes (path : String) (program : List UInt8) : List UInt8 :=
  let name := referenceBytes path
  padded (bytes (UInt32.ofNat name.length) ++ name) ++ program

end Image

end ShaderEffect
