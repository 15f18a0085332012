import ShaderEffect.Tree.Basic

/-!
# Memory

Values live in blocks, one per root, which effects of one pool may share. Every write stamps its
block with the next value of an update counter, so that "changed since" is a comparison of numbers.
Identities of objects come from memory too.
-/

namespace ShaderEffect

/-- A block: what a root holds now, and when it was last written. -/
structure Block extends Contents where
  version : Nat := 0
deriving Inhabited

/-- Blocks, update counters and the next identity of an object. -/
structure Memory where
  blocks : Array Block := #[]
  counters : Array Nat := #[]
  nextObject : Nat := 0

namespace Memory

/-- The block of a number. -/
def block (m : Memory) (id : Nat) : Block := m.blocks.getD id {}

/-- Replace the block of a number. -/
def setBlock (m : Memory) (id : Nat) (b : Block) : Memory :=
  { m with blocks := m.blocks.setIfInBounds id b }

/-- Add blocks with the given contents; the answer is their numbers. -/
def allocate (m : Memory) (contents : Array Contents) : Array Nat × Memory :=
  ((Array.range contents.size).map (m.blocks.size + ·),
    { m with blocks := m.blocks ++ contents.map fun c => { c with version := 0 } })

/-- The value of an update counter. -/
def counter (m : Memory) (id : Nat) : Nat := m.counters.getD id 0

/-- Count one update; the answer is its number. -/
def nextVersion (m : Memory) (id : Nat) : Nat × Memory :=
  let version := m.counter id + 1
  (version, { m with counters := m.counters.setIfInBounds id version })

/-- Add an update counter. -/
def newCounter (m : Memory) : Nat × Memory :=
  (m.counters.size, { m with counters := m.counters.push 0 })

/-- Give a value an identity. -/
def share {α : Type} (m : Memory) (value : α) : Shared α × Memory :=
  (⟨m.nextObject, value⟩, { m with nextObject := m.nextObject + 1 })

end Memory

end ShaderEffect
