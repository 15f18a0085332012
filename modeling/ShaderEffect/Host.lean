import ShaderEffect.Effect.Begin
import ShaderEffect.Effect.Block
import ShaderEffect.Effect.Pool

/-!
# Hosts

A host has the memory, the effects, the pools and the devices of one program. Effects are made from
images, alone or against a pool, or cloned from other effects.

An effect made against a pool has the update counter of the pool; a clone has that of the effect it
is cloned from; any other effect has a counter of its own.
-/

namespace ShaderEffect

/-- A host. -/
structure Host where
  memory : Memory := {}
  /-- The effects made so far, without those that were dropped. -/
  effects : Array (Option Effect) := #[]
  pools : Array Pool := #[]
  devices : Table Nat Device := .empty

namespace Host

variable (host : Host)

/-! ### Devices -/

/-- A device; one that was never used has all its states at their defaults. -/
def device (d : Nat) : Device := (host.devices.get? d).getD {}

/-- Let a device carry out calls. -/
def send (d : Nat) (calls : List DeviceCall) : Host :=
  { host with devices := host.devices.insert d ((host.device d).applyAll calls) }

/-! ### Effects -/

/-- The state of an effect, unless it was dropped. -/
def state? (e : Nat) : Option EffectState :=
  match host.effects[e]? with
  | some (some effect) => some ⟨host.memory, effect⟩
  | _ => none

/-- Keep the state of an effect. -/
def setState (e : Nat) (s : EffectState) : Host :=
  { host with memory := s.memory, effects := host.effects.setIfInBounds e (some s.effect) }

/-- Drop an effect. Its number is not used again. -/
def drop (e : Nat) : Host := { host with effects := host.effects.setIfInBounds e none }

/-- Add an effect; the answer is its number. -/
def addEffect (effect : Effect) : Nat × Host :=
  (host.effects.size, { host with effects := host.effects.push (some effect) })

/-- Make a pool; the answer is its number. -/
def createPool : Nat × Host :=
  let (counter, memory) := host.memory.newCounter
  (host.pools.size, { host with memory, pools := host.pools.push { counter } })

/-- Bind the shared parameters of a tree to a pool, if there is one; the answer is the block of each
root. -/
def bindPool (tree : Tree) (pool : Option Nat) (roots : Array Nat) : Array Nat × Host :=
  match pool.bind fun i => host.pools[i]?.map (i, ·) with
  | none => (roots, host)
  | some (i, p) =>
    let (p, roots) := Pool.bind tree tree.top p roots
    (roots, { host with pools := host.pools.setIfInBounds i p })

/-- Link an image and give every root a block: one of the pool, or one of its own with the initial
value. -/
def linkImage (image : Image) (skip : List String) (pool : Option Nat) (counter : Nat) :
    Except EffectError (LinkedEffect × Host) := do
  let l ← Link.link image skip host.memory.nextObject
  let memory := { host.memory with nextObject := l.nextObject }
  let (own, memory) := memory.allocate l.tree.initial
  let (roots, host) := { host with memory }.bindPool l.tree pool own
  return ({ image, skip, tree := l.tree, techniques := l.techniques, roots, counter, pool }, host)

/-- Make an effect from an image, alone or against a pool; the answer is its number. -/
def create (image : Image) (skip : List String) (pool : Option Nat) :
    Except EffectError (Nat × Host) := do
  match pool.bind fun i => host.pools[i]? with
  | some p =>
    let (linked, host) ← host.linkImage image skip pool p.counter
    return host.addEffect (.ofLinked linked)
  | none =>
    let (counter, memory) := host.memory.newCounter
    let (linked, host) ← { host with memory }.linkImage image skip none counter
    return host.addEffect (.ofLinked linked)

/-- Give the blocks of an effect the values that another effect has in its own, as far as they are
not the same blocks. -/
def copyBlocks (source target : Array Nat) (m : Memory) : Memory :=
  (source.toList.zip target.toList).foldl
    (fun m (a, b) => if a = b then m else m.setBlock b (m.block a)) m

/-- Make an effect from the image of another one, with the values and the technique it has now; the
answer is its number. -/
def clone (source : Effect) : Except EffectError (Nat × Host) := do
  let e := source.linked
  let (linked, host) ← host.linkImage e.image e.skip e.pool e.counter
  let host := { host with memory := copyBlocks e.roots linked.roots host.memory }
  return host.addEffect { Effect.ofLinked linked with technique := source.technique }

end Host

end ShaderEffect
