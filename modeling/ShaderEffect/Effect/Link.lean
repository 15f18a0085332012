import ShaderEffect.Bytes.Replacement
import ShaderEffect.Effect.SkipList
import ShaderEffect.Shader.Encode
import ShaderEffect.Tree.Build
import ShaderEffect.Table

/-!
# Linking

Linking turns an image into a parameter tree and techniques. Texts and shaders are made from the
data attached to objects and put into the slots that wait for them; data attached to states decides
where those take their values from. Every path and every program input must lead to a parameter.
-/

namespace ShaderEffect

/-- A pass of a linked effect. -/
structure Pass where
  name : Option String
  annotations : List Handle
  states : List StateEntry

/-- A technique of a linked effect. -/
structure Technique where
  name : Option String
  annotations : List Handle
  passes : List Pass

namespace Growth

/-- Add a pass. -/
def addPass (p : PassRecord) : Step Pass := do
  let annotations ← addAnnotations p.annotations
  let states ← addStates p.states
  return ⟨p.name, annotations, states⟩

/-- Add a technique. -/
def addTechnique (t : TechniqueRecord) : Step Technique := do
  let annotations ← addAnnotations t.annotations
  let passes ← t.passes.mapM addPass
  return ⟨t.name, annotations, passes⟩

/-- Add everything an image holds. -/
def addImage (im : Image) : Step (List Handle × List Technique) := do
  let top ← im.parameters.mapM addParameter
  let techniques ← im.techniques.mapM addTechnique
  return (top, techniques)

end Growth

/-! ### Objects -/

namespace Node

mutual

/-- The objects a value refers to, with the types it gives them, in tree order. -/
def objectTypes : Node → List (UInt32 × ParameterType)
  | .array _ elements => objectTypesOf elements
  | .struct _ members => objectTypesOf members
  | .object d id => [(id, d.type)]
  | .sampler _ states => stateObjectTypes states
  | .words .. | .unsupported _ => []

/-- The objects that several values refer to. -/
def objectTypesOf : List Node → List (UInt32 × ParameterType)
  | [] => []
  | n :: rest => n.objectTypes ++ objectTypesOf rest

/-- The objects that the values of states refer to. -/
def stateObjectTypes : List (Assignment Node) → List (UInt32 × ParameterType)
  | [] => []
  | ⟨_, _, n⟩ :: rest => n.objectTypes ++ stateObjectTypes rest

end

end Node

/-- The objects an image refers to, with the types it gives them. -/
def Image.objectTypes (im : Image) : List (UInt32 × ParameterType) :=
  (im.parameters.flatMap fun p => p.node.objectTypes ++ Node.objectTypesOf p.annotations) ++
  (im.techniques.flatMap fun t => Node.objectTypesOf t.annotations ++
    t.passes.flatMap fun p =>
      Node.objectTypesOf p.annotations ++ Node.stateObjectTypes p.states)

/-- The type an object was first referred to by. -/
def Image.objectType? (im : Image) (id : UInt32) : Option ParameterType :=
  (im.objectTypes.find? fun (i, _) => i == id).map (·.2)

namespace Link

/-- What linking has made so far. -/
structure Linking where
  tree : Tree
  techniques : List Technique
  objects : Table UInt32 EffectObject
  nextObject : Nat

/-- A shader object for a slot of the given type. -/
def makeShader (type : ParameterType) (data : Bytes) (id : Nat) :
    Except FormatError EffectObject := do
  let shader ← Shader.decode data
  if shader.stage.type ≠ type then throw (.stageMismatch shader.stage type)
  return .shader ⟨id, shader⟩

/-- Make the object that some data describes, if it is a text or a shader. -/
def makeObject (type : Option ParameterType) (data : Bytes) (id : Nat) :
    Except FormatError (Option EffectObject) :=
  match type with
  | some .string => .ok (some (.text ⟨id, Bytes.replacingText (Bytes.beforeZero data)⟩))
  | some .vertexShader => do return some (← makeShader .vertexShader data id)
  | some .pixelShader => do return some (← makeShader .pixelShader data id)
  | _ => .ok none

/-- Make the objects of an image one after the other. -/
def makeObjects (im : Image) : List ObjectData → Linking → Except FormatError Linking
  | [], l => .ok l
  | d :: rest, l => do
    let object ← makeObject (im.objectType? d.id) d.data l.nextObject
    makeObjects im rest
      { l with objects := l.objects.set d.id object, nextObject := l.nextObject + 1 }

/-! ### Programs -/

/-- Bind the inputs of a program to parameters. -/
def bindInputs (tree : Tree) (p : Program) : List (Constant × Option Handle) :=
  p.inputs.constants.map fun c => (c, tree.find? none c.name)

/-- Read a program and bind its inputs. -/
def bindProgram (tree : Tree) (skip : List String) (data : Bytes) :
    Except EffectError BoundProgram := do
  let program ← (Program.decode data).mapError .format
  checkInputs tree skip program.inputs.constants
  return ⟨program, bindInputs tree program⟩

/-! ### States -/

/-- The place of a state assignment. -/
inductive StatePlace where
  | sampler (h : Handle) (state : Nat)
  | pass (technique pass state : Nat)

/-- The place a resource is for. -/
def placeOf (tree : Tree) (r : Resource) : Option StatePlace :=
  if r.technique = noIndex then do
    let h ← tree.top[r.index.toNat]?
    if r.element = noIndex then return .sampler h r.state.toNat
    else return .sampler (← tree.element? h r.element.toNat) r.state.toNat
  else some (.pass r.technique.toNat r.index.toNat r.state.toNat)

/-- The state assignment at a place. -/
def stateAt (l : Linking) : StatePlace → Option StateEntry
  | .sampler h i => do (← l.tree.node? h).states[i]?
  | .pass t p i => do (← (← l.techniques[t]?).passes[p]?).states[i]?

/-- Give a state assignment another source. -/
def setSource (l : Linking) (place : StatePlace) (source : Source) : Linking :=
  let change (states : List StateEntry) (i : Nat) : List StateEntry :=
    states.modify i fun s => { s with source }
  match place with
  | .sampler h i => { l with tree := l.tree.modifyNode h fun p =>
      { p with states := change p.states i } }
  | .pass t p i => { l with techniques := l.techniques.modify t fun t =>
      { t with passes := t.passes.modify p fun p => { p with states := change p.states i } } }

/-- The shader of a shader-valued state, put where the first slot under the state's root waits. -/
def bindShader (pending : Array Pending) (l : Linking) (p : Parameter) (data : Bytes) :
    Except EffectError Linking := do
  let object ← (makeShader p.decl.type data l.nextObject).mapError .format
  let some slot := pending.find? (·.root == p.root) | throw (.format .shaderWithoutSlot)
  return { l with objects := l.objects.insert slot.id object, nextObject := l.nextObject + 1 }

/-- The parameter a reference names. -/
def readReference (tree : Tree) (data : Bytes) : Except EffectError Source := do
  let path ← (data.text 0 "parameter reference").mapError .format
  match tree.find? none path with
  | some h => return .parameter h
  | none => throw (.format (.unknownReference path))

/-- The array and the program of a selector. -/
def readSelector (tree : Tree) (skip : List String) (data : Bytes) :
    Except EffectError Source := do
  let length ← (data.word 0 "array selector name size").mapError .format
  let path ← (data.text 4 "array selector name").mapError .format
  let start := 4 + (length.toNat + Word.padding length.toNat)
  if data.size < start then throw (.format .selectorOverrun)
  let some array := tree.find? none path | throw (.format (.unknownSelector path))
  let elements := ((tree.node? array).map (·.decl.elements)).getD 0
  if elements = 0 then throw (.format (.selectorNotArray path))
  return .selector array (← bindProgram tree skip (data.extract start data.size))

/-- Attach one resource to its state. -/
def bindResource (skip : List String) (pending : Array Pending) (l : Linking) (r : Resource) :
    Except EffectError Linking := do
  let missing : EffectError := .format (.missingState r.technique r.index r.element r.state)
  let some place := placeOf l.tree r | throw missing
  let some state := stateAt l place | throw missing
  let some p := l.tree.node? state.param | throw (.call .badParameter)
  match r.usage.toNat with
  | 0 =>
    if p.decl.type.isShader then
      return setSource (← bindShader pending l p r.data) place .constant
    else return setSource l place (.expression (← bindProgram l.tree skip r.data))
  | 1 => return setSource l place (← readReference l.tree r.data)
  | 2 => return setSource l place (← readSelector l.tree skip r.data)
  | usage => throw (.format (.unknownUsage usage))

/-- Attach resources one after the other. -/
def bindResources (skip : List String) (pending : Array Pending) :
    List Resource → Linking → Except EffectError Linking
  | [], l => .ok l
  | r :: rest, l => do bindResources skip pending rest (← bindResource skip pending l r)

/-- Put the objects into the slots that wait for them. -/
def fillSlots (objects : Table UInt32 EffectObject) (pending : Array Pending)
    (initial : Array Contents) : Array Contents :=
  pending.foldl (fun initial p => initial.modify p.root fun c =>
    { c with objects := c.objects.setIfInBounds p.slot (objects.get? p.id) }) initial

/-- Check the programs of all shaders that were made. -/
def checkShaders (tree : Tree) (skip : List String) :
    List (UInt32 × EffectObject) → Except EffectError Unit
  | [] => .ok ()
  | (_, object) :: rest => do
    if let some program := object.shader?.bind (·.value.program) then
      checkInputs tree skip program.inputs.constants
    checkShaders tree skip rest

/-- Link an image; identities of objects start at `nextObject`. -/
def link (im : Image) (skip : List String) (nextObject : Nat) : Except EffectError Linking := do
  let ((top, techniques), growth) := (Growth.addImage im).run {}
  let tree : Tree := { nodes := growth.nodes, top, initial := growth.initial }
  let linking := ⟨tree, techniques, .empty, nextObject⟩
  let l ← (makeObjects im im.objectData linking).mapError .format
  let l ← bindResources skip growth.pending im.resources l
  let filled := fillSlots l.objects growth.pending l.tree.initial
  checkShaders l.tree skip l.objects.entries
  return { l with tree := { l.tree with initial := filled } }

end Link

end ShaderEffect
