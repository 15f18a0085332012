import ShaderEffect.Tree.Basic

/-!
# Building parameter trees

Nodes are laid out in tree order: a node comes before its children, and its words and object slots
are those of its leaves, one after the other. The value of each state of a sampler is a root of its
own, laid out where the sampler is met.
-/

namespace ShaderEffect

/-- An object slot that waits for the object of a given number. -/
structure Pending where
  root : Nat
  slot : Nat
  id : UInt32

/-- A tree that grows. -/
structure Growth where
  nodes : Array Parameter := #[]
  initial : Array Contents := #[]
  pending : Array Pending := #[]

namespace Growth

/-- A step of growing. -/
abbrev Step := StateM Growth

/-- Add, with saturation, the sizes of children. -/
def saturatingAdd (a b : UInt32) : UInt32 :=
  if 0xFFFFFFFF - a < b then 0xFFFFFFFF else a + b

/-- The size of a node in bytes, given the sizes of its children. -/
def sizeOfNode (node : Node) (children : List UInt32) : UInt32 :=
  match node with
  | .array .. | .struct .. => children.foldl saturatingAdd 0
  | .words d _ => d.rows * d.columns * 4
  | .object .. | .sampler .. | .unsupported _ => 4

/-- The size of the node at a handle. -/
def sizeAt (g : Growth) (h : Handle) : UInt32 := (g.nodes[h.index]?.map (·.bytes)).getD 0

/-- Reserve the place of a node. -/
def reserve (node : Node) (root : Nat) (top : Option Handle) (flags : UInt32) : Step Handle :=
  modifyGet fun g =>
    let h : Handle := ⟨g.nodes.size⟩
    let parameter : Parameter := {
      node, members := [], annotations := [], flags, bytes := 0, root, top := top.getD h
      words := ⟨0, 0⟩, objects := ⟨0, 0⟩, states := [] }
    (h, { g with nodes := g.nodes.push parameter })

/-- Fill the place of a node. -/
def finish (h : Handle) (node : Node) (members : List Handle) (states : List StateEntry)
    (before after : Contents) : Step Unit :=
  modify fun g =>
    let bytes := sizeOfNode node (members.map g.sizeAt)
    { g with nodes := g.nodes.modify h.index fun p => { p with
        members, bytes, states
        words := ⟨before.words.size, after.words.size - before.words.size⟩
        objects := ⟨before.objects.size, after.objects.size - before.objects.size⟩ } }

/-- Note that a slot waits for an object. -/
def await (root slot : Nat) (id : UInt32) : Step Unit :=
  modify fun g => { g with pending := g.pending.push ⟨root, slot, id⟩ }

/-- Number a new root. -/
def newRoot : Step Nat :=
  modifyGet fun g => (g.initial.size, { g with initial := g.initial.push {} })

/-- Set what a root holds. -/
def setRoot (root : Nat) (contents : Contents) : Step Unit :=
  modify fun g => { g with initial := g.initial.setIfInBounds root contents }

mutual

/-- Add a node under a root, after the contents laid out so far; the answer is its handle and the
contents then. -/
def addNode (root : Nat) (top : Option Handle) (flags : UInt32) :
    Node → Contents → Step (Handle × Contents)
  | .array d elements, before => do
    let h ← reserve (.array d elements) root top flags
    let (members, after) ← addNodes root (top.getD h) flags elements before
    finish h (.array d elements) members [] before after
    return (h, after)
  | .struct d fields, before => do
    let h ← reserve (.struct d fields) root top flags
    let (members, after) ← addNodes root (top.getD h) flags fields before
    finish h (.struct d fields) members [] before after
    return (h, after)
  | .words d ws, before => do
    let h ← reserve (.words d ws) root top flags
    let after := { before with words := before.words ++ ws.toArray }
    finish h (.words d ws) [] [] before after
    return (h, after)
  | .object d id, before => do
    let h ← reserve (.object d id) root top flags
    await root before.objects.size id
    let after := { before with objects := before.objects.push none }
    finish h (.object d id) [] [] before after
    return (h, after)
  | .sampler d states, before => do
    let h ← reserve (.sampler d states) root top flags
    let entries ← addStates states
    finish h (.sampler d states) [] entries before before
    return (h, before)
  | .unsupported d, before => do
    let h ← reserve (.unsupported d) root top flags
    finish h (.unsupported d) [] [] before before
    return (h, before)

/-- Add nodes one after the other. -/
def addNodes (root : Nat) (top : Handle) (flags : UInt32) :
    List Node → Contents → Step (List Handle × Contents)
  | [], before => pure ([], before)
  | node :: rest, before => do
    let (h, between) ← addNode root (some top) flags node before
    let (hs, after) ← addNodes root top flags rest between
    return (h :: hs, after)

/-- Add state assignments, each value as a root of its own. -/
def addStates : List (Assignment Node) → Step (List StateEntry)
  | [] => pure []
  | ⟨operation, index, value⟩ :: rest => do
    let root ← newRoot
    let (h, contents) ← addNode root none 0 value {}
    setRoot root contents
    let entries ← addStates rest
    return ⟨operation, index, h, .constant⟩ :: entries

end

/-- Add a root. -/
def addRoot (flags : UInt32) (node : Node) : Step Handle := do
  let root ← newRoot
  let (h, contents) ← addNode root none flags node {}
  setRoot root contents
  return h

/-- Add annotations. -/
def addAnnotations (nodes : List Node) : Step (List Handle) := nodes.mapM (addRoot annotationFlag)

/-- Add a top-level parameter and its annotations. -/
def addParameter (p : ParameterRecord) : Step Handle := do
  let h ← addRoot (p.flags &&& flagMask) p.node
  let annotations ← addAnnotations p.annotations
  modify fun g => { g with nodes := g.nodes.modify h.index fun p => { p with annotations } }
  return h

end Growth

end ShaderEffect
