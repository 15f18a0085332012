import ShaderEffect.Device.Snapshot
import ShaderEffect.Effect.Link
import ShaderEffect.Memory

/-!
# Effects

A linked effect is what stays the same while an effect is used: its parameter tree, its techniques,
and which blocks and which update counter of memory are its own. An effect adds what changes. All
values are in memory, so the state of an effect is a memory and an effect together.
-/

namespace ShaderEffect

/-- The part of an effect that stays the same. -/
structure LinkedEffect where
  image : Image
  skip : List String
  tree : Tree
  techniques : List Technique
  /-- The block of each root. -/
  roots : Array Nat
  counter : Nat
  pool : Option Nat

namespace LinkedEffect

variable (e : LinkedEffect) (m : Memory)

/-- The number of the block that holds a parameter. -/
def blockOf? (h : Handle) : Option Nat := do e.roots[(← e.tree.node? h).root]?

/-- The words of a parameter. -/
def words (h : Handle) : List UInt32 :=
  match e.tree.node? h, e.blockOf? h with
  | some p, some id => p.words.read (m.block id).words
  | _, _ => []

/-- The object slots of a parameter. -/
def objects (h : Handle) : List (Option EffectObject) :=
  match e.tree.node? h, e.blockOf? h with
  | some p, some id => p.objects.read (m.block id).objects
  | _, _ => []

/-- The object in the first slot of a parameter. -/
def object? (h : Handle) : Option EffectObject := (e.objects m h).head?.join

/-- When the block of a parameter was last written. -/
def version (h : Handle) : Nat :=
  match e.blockOf? h with
  | some id => (m.block id).version
  | none => 0

/-- Whether the block of a parameter was written after the given update. -/
def isDirty (h : Handle) (since : Nat) : Bool := since < e.version m h

/-! ### Writing -/

/-- Change the block of a parameter and stamp it. -/
def writeBlock (h : Handle) (f : Parameter → Contents → Contents) : Memory :=
  match e.tree.node? h, e.blockOf? h with
  | some p, some id =>
    let (version, m) := m.nextVersion e.counter
    m.setBlock id { f p (m.block id).toContents with version }
  | _, _ => m

/-- Change the words of a parameter. -/
def writeWords (h : Handle) (f : List UInt32 → List UInt32) : Memory :=
  e.writeBlock m h fun p c => { c with words := p.words.write c.words (f (p.words.read c.words)) }

/-- Change the object slots of a parameter. -/
def writeObjects (h : Handle)
    (f : List (Option EffectObject) → List (Option EffectObject)) : Memory :=
  e.writeBlock m h fun p c =>
    { c with objects := p.objects.write c.objects (f (p.objects.read c.objects)) }

/-- Give a parameter the value it had when the effect was made. -/
def resetValue (h : Handle) : Memory :=
  e.writeBlock m h fun p c =>
    let initial := e.tree.initial.getD p.root {}
    { words := p.words.write c.words (p.words.read initial.words)
      objects := p.objects.write c.objects (p.objects.read initial.objects) }

end LinkedEffect

/-- The values of a parameter at the time it was recorded. -/
structure BlockEntry where
  h : Handle
  words : List UInt32
  objects : List (Option EffectObject)

/-- Values recorded to be given back later, each parameter once. -/
abbrev ParameterBlock := List BlockEntry

/-- Where an effect stands between beginning and ending. -/
inductive Phase where
  | idle
  /-- Begun, with the states saved, if any, and the pass applied, if any. -/
  | begun (saved : Option Snapshot) (active : Option Nat)

/-- An effect. -/
structure Effect where
  linked : LinkedEffect
  technique : Option Nat
  /-- The update at which each pass of each technique was last applied. -/
  applied : List (List Nat)
  phase : Phase
  lights : Vector Light Light.count
  material : Material
  /-- The device that receives the calls of passes instead of the caller's. -/
  manager : Option Nat
  blocks : Array (Option ParameterBlock)
  /-- The block being recorded. -/
  recording : Option ParameterBlock

/-- The state of an effect: its values and itself. -/
structure EffectState where
  memory : Memory
  effect : Effect

namespace Effect

/-- An effect as it is when made. -/
def ofLinked (e : LinkedEffect) : Effect where
  linked := e
  technique := if e.techniques.isEmpty then none else some 0
  applied := e.techniques.map fun t => t.passes.map fun _ => 0
  phase := .idle
  lights := Vector.replicate _ {}
  material := {}
  manager := none
  blocks := #[]
  recording := none

end Effect

namespace EffectState

/-- The linked effect. -/
abbrev linked (s : EffectState) : LinkedEffect := s.effect.linked

/-- The parameter tree. -/
abbrev tree (s : EffectState) : Tree := s.linked.tree

/-- The node of a parameter, or the error that there is none. -/
def node (s : EffectState) (h : Handle) : Except CallError Parameter :=
  match s.tree.node? h with
  | some p => .ok p
  | none => .error .badParameter

/-- The words of a parameter. -/
def words (s : EffectState) (h : Handle) : List UInt32 := s.linked.words s.memory h

/-- The object slots of a parameter. -/
def objects (s : EffectState) (h : Handle) : List (Option EffectObject) :=
  s.linked.objects s.memory h

/-- The object in the first slot of a parameter. -/
def object? (s : EffectState) (h : Handle) : Option EffectObject := s.linked.object? s.memory h

/-! ### Recorded writes -/

/-- Add or replace the entry of a parameter. -/
def recordEntry (entry : BlockEntry) : ParameterBlock → ParameterBlock
  | [] => [entry]
  | e :: rest => if e.h = entry.h then entry :: rest else e :: recordEntry entry rest

/-- Note the value of a parameter just written in the block being recorded. -/
def record (s : EffectState) (h : Handle) : EffectState :=
  match s.effect.recording with
  | none => s
  | some block =>
    let block := recordEntry ⟨h, s.words h, s.objects h⟩ block
    { s with effect := { s.effect with recording := some block } }

/-- Change the words of a parameter. -/
def writeWords (s : EffectState) (h : Handle) (f : List UInt32 → List UInt32) : EffectState :=
  { s with memory := s.linked.writeWords s.memory h f }.record h

/-- Change the object slots of a parameter. -/
def writeObjects (s : EffectState) (h : Handle)
    (f : List (Option EffectObject) → List (Option EffectObject)) : EffectState :=
  { s with memory := s.linked.writeObjects s.memory h f }.record h

/-- Give a parameter the value it had when the effect was made. -/
def resetValue (s : EffectState) (h : Handle) : Except CallError EffectState := do
  let _ ← s.node h
  return { s with memory := s.linked.resetValue s.memory h }.record h

end EffectState

end ShaderEffect
