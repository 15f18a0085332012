import ShaderEffect.Image.Encode

/-!
# What content describes

The content of an effect that is to be written describes an image (`WrittenEffect.image?`). Its
types have to be consistent and its names must not contain the character that ends them. A value has
to supply what its type takes, leaf by leaf in tree order: a word for each number, the number of an
object for each object, and a part of states for each sampler. What it supplies beyond that is left
out.
-/

namespace ShaderEffect

/-- A name without the character that ends stored names. -/
def IsPlain (name : Option String) : Prop := ∀ text ∈ name, '\u0000' ∉ text.toList

instance (name : Option String) : Decidable (IsPlain name) :=
  inferInstanceAs (Decidable (∀ text ∈ name, _))

/-- The rows and columns that are told of a value of a class. -/
def ParameterClass.shape (cls : ParameterClass) (rows columns : UInt32) : UInt32 × UInt32 :=
  match cls with
  | .scalar | .matrixRows | .matrixColumns => (rows, columns)
  | .vector => (1, columns)
  | .object | .struct => (0, 0)

namespace WrittenType

mutual

/-- What a type says, if it is consistent. -/
def def? : WrittenType → Option Image.TypeDef
  | .mk type cls name semantic elements rows columns members => do
    let type ← ParameterType.ofNumber? type.toNat
    let cls ← ParameterClass.ofNumber? cls.toNat
    let shape := cls.shape rows columns
    let decl : Declaration := ⟨name, semantic, cls, type, shape.1, shape.2, elements⟩
    let inner := if cls = .struct then defs? members else some []
    let members ← inner
    if IsPlain name ∧ IsPlain semantic ∧ Image.isConsistent decl then some (.mk decl members)
    else none

/-- What several types say. -/
def defs? : List WrittenType → Option (List Image.TypeDef)
  | [] => some []
  | t :: rest => do
    let first ← t.def?
    return first :: (← defs? rest)

end

end WrittenType

/-! ### Values -/

/-- What a value supplies: a word, or the states of a sampler if these describe any. -/
inductive Item where
  | word (w : UInt32)
  | sampler (states : Option (List (Assignment Node)))

/-- To take items from those that are left. -/
abbrev Filler := StateT (List Item) Option

namespace Filler

/-- Take a word. -/
def word : Filler UInt32 := fun items => match items with
  | .word w :: rest => some (w, rest)
  | _ => none

/-- Take the states of a sampler. -/
def states : Filler (List (Assignment Node)) := fun items => match items with
  | .sampler (some states) :: rest => some (states, rest)
  | _ => none

/-- Take the number of an object. -/
def object (objectCount : UInt32) (d : Declaration) : Filler Node := do
  let id ← word
  if id < objectCount then return if d.type = .unsupported then .unsupported d else .object d id
  else failure

/-- Take a value of a type given how one such value that is no array is taken. -/
def elements (d : Declaration) (one : Filler Node) : Filler Node :=
  if d.elements = 0 then one
  else do return .array d (← repeated one d.elements.toNat [])

section

variable (objectCount : UInt32)

mutual

/-- Take a value as if its type were no array. -/
def one : Image.TypeDef → Filler Node
  | .mk d inner =>
    match d.cls with
    | .struct => do return .struct d.element (← members inner)
    | .object =>
      if d.type.isSampler then do return .sampler d.element (← states)
      else object objectCount d.element
    | _ => do return .words d.element (← repeated word d.wordCount [])

/-- Take the members of a struct one after the other. -/
def members : List Image.TypeDef → Filler (List Node)
  | [] => return []
  | .mk d inner :: rest => do
    let node ← elements d (one (.mk d inner))
    return node :: (← members rest)

end

/-- Take a value of a type. -/
def value (type : Image.TypeDef) : Filler Node :=
  match type with
  | .mk d _ => elements d (one objectCount type)

end

end Filler

section

variable (objectCount : UInt32)

/-- The value of a type that items supply. -/
def WrittenType.node? (t : WrittenType) (items : List Item) : Option Node := do
  let type ← t.def?
  let (node, _) ← Filler.value objectCount type items
  return node

mutual

/-- What the parts of a value supply. -/
def itemsOf : List WrittenPart → List Item
  | [] => []
  | .word w :: rest => .word w :: itemsOf rest
  | .sampler states :: rest => .sampler (assignments? states) :: itemsOf rest

/-- The state assignments that are described; an operation is a place in the table of states. -/
def assignments? : List WrittenState → Option (List (Assignment Node))
  | [] => some []
  | .mk operation index type value :: rest => do
    let node ← type.node? objectCount (itemsOf value)
    let others ← assignments? rest
    if operation.toNat < StateTable.size then some (⟨operation, index, node⟩ :: others) else none

end

/-! ### Effects -/

/-- The annotations that are described. -/
def notes? : List WrittenNote → Option (List Node)
  | [] => some []
  | note :: rest => do
    let node ← note.type.node? objectCount (itemsOf objectCount note.value)
    return node :: (← notes? rest)

/-- The parameters that are described. -/
def parameters? : List WrittenParameter → Option (List ParameterRecord)
  | [] => some []
  | p :: rest => do
    let node ← p.type.node? objectCount (itemsOf objectCount p.value)
    let notes ← notes? objectCount p.notes
    return ⟨p.flags, node, notes⟩ :: (← parameters? rest)

/-- The passes that are described. -/
def passes? : List WrittenPass → Option (List PassRecord)
  | [] => some []
  | p :: rest => do
    let notes ← notes? objectCount p.notes
    let states ← assignments? objectCount p.states
    let others ← passes? rest
    if IsPlain p.name then some (⟨p.name, notes, states⟩ :: others) else none

/-- The techniques that are described. -/
def techniques? : List WrittenTechnique → Option (List TechniqueRecord)
  | [] => some []
  | t :: rest => do
    let notes ← notes? objectCount t.notes
    let passes ← passes? objectCount t.passes
    let others ← techniques? rest
    if IsPlain t.name then some (⟨t.name, notes, passes⟩ :: others) else none

end

namespace WrittenEffect

/-- The image that content describes. -/
def image? (e : WrittenEffect) : Option Image := do
  let parameters ← parameters? e.objectCount e.parameters
  let techniques ← techniques? e.objectCount e.techniques
  if ∀ d ∈ e.objectData, d.id < e.objectCount then
    some ⟨parameters, techniques, e.objectCount, e.objectData, e.resources⟩
  else none

end WrittenEffect

end ShaderEffect
