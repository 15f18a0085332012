import ShaderEffect.Proofs.Device
import ShaderEffect.Proofs.Host.Call
import ShaderEffect.Proofs.Host.Pools

/-!
# What blocks are for

A block holds the value of one state of one effect, or values of parameters that the effects of one
update counter may share. No block is stamped later than the counter it belongs to. In every host
that can come about, the blocks can be told apart like this (`Host.Layout`).
-/

namespace ShaderEffect

/-- What a block is for: the counter that stamps it, and the effect and root it belongs to if it
holds the value of a state. -/
structure BlockUse where
  counter : Nat
  value : Option (Nat × Nat)

/-- A block is used as the one of a root of an effect. -/
structure LinkedEffect.Uses (e : LinkedEffect) (i r : Nat) (use : BlockUse) : Prop where
  counter : use.counter = e.counter
  value : e.IsValueRoot r → use.value = some (i, r)
  shared : ¬e.IsValueRoot r → use.value = none

/-- An effect of a host that was linked from its image, and whose blocks are used as its own. -/
structure Effect.Fits (host : Host) (use : Nat → BlockUse) (i : Nat) (effect : Effect) :
    Prop where
  linked : ∃ nextObject l, Link.link effect.linked.image effect.linked.skip nextObject = .ok l ∧
    effect.linked.tree = l.tree ∧ effect.linked.techniques = l.techniques
  counter_lt : effect.linked.counter < host.memory.counters.size
  size_roots : effect.linked.roots.size = effect.linked.tree.initial.size
  uses : ∀ r id, effect.linked.roots[r]? = some id →
    id < host.memory.blocks.size ∧ effect.linked.Uses i r (use id)
  shape : effect.applied.map List.length = effect.linked.techniques.map (·.passes.length)
  stamps : ∀ stamps ∈ effect.applied, ∀ stamp ∈ stamps,
    stamp ≤ host.memory.counter effect.linked.counter
  pool : ∀ p, effect.linked.pool = some p → ∃ pool, host.pools[p]? = some pool ∧
    pool.counter = effect.linked.counter ∧
    ∀ h ∈ effect.linked.tree.top, pool.Agrees effect.linked.tree effect.linked.roots h

namespace Host

/-- Every block of a host has one use, and is not stamped later than that allows. -/
structure Layout (host : Host) (use : Nat → BlockUse) : Prop where
  versions : ∀ id, (host.memory.block id).version ≤ host.memory.counter (use id).counter
  pools : ∀ pool ∈ host.pools, pool.counter < host.memory.counters.size ∧
    ∀ entry ∈ pool.entries,
      entry.block < host.memory.blocks.size ∧ use entry.block = ⟨pool.counter, none⟩
  effects : ∀ (i : Nat) (effect : Effect), host.effects[i]? = some (some effect) →
    effect.Fits host use i
  devices : ∀ d, (host.device d).Canonical

/-- A host whose blocks can be told apart. -/
def LaidOut (host : Host) : Prop := ∃ use, host.Layout use

end Host

/-! ### Effects that fit -/

namespace Effect.Fits

variable {host : Host} {use : Nat → BlockUse} {i : Nat} {effect : Effect}
  (hfits : effect.Fits host use i)
include hfits

/-- An effect that fits is proper. -/
theorem proper : effect.linked.Proper where
  laid := by
    obtain ⟨n, l, hlink, htree, htechniques⟩ := hfits.linked
    rw [htree, htechniques]
    exact (Link.attaches_link hlink).skeleton.laid (Link.laid_start _)
  sourced := by
    obtain ⟨n, l, hlink, htree, htechniques⟩ := hfits.linked
    rw [LinkedEffect.states]
    simp only [LinkedEffect.IsParameter]
    rw [htree, htechniques]
    exact (Link.attaches_link hlink).sourced (Link.sourced_start _)
  own r hr id hid r' hid' := by
    have huse := (hfits.uses r id hid).2.value hr
    by_cases hr' : effect.linked.IsValueRoot r'
    · have huse' := (hfits.uses r' id hid').2.value hr'
      rw [huse, Option.some.injEq, Prod.mk.injEq] at huse'
      exact huse'.2.symm
    · have huse' := (hfits.uses r' id hid').2.shared hr'
      rw [huse] at huse'
      cases huse'

lemma counter_of_owns {id : Nat} (hid : effect.linked.Owns id) :
    (use id).counter = effect.linked.counter := by
  obtain ⟨r, hr⟩ := hid
  exact (hfits.uses r id hr).2.counter

lemma lt_of_owns {id : Nat} (hid : effect.linked.Owns id) : id < host.memory.blocks.size := by
  obtain ⟨r, hr⟩ := hid
  exact (hfits.uses r id hr).1

lemma exists_root {h : Handle} {p : Parameter} (hp : effect.linked.tree.node? h = some p) :
    ∃ id, effect.linked.roots[p.root]? = some id ∧ id < host.memory.blocks.size := by
  have hlt : p.root < effect.linked.roots.size := by
    rw [hfits.size_roots]
    exact hfits.proper.laid.root_lt h p.root (Tree.root?_of_node? hp)
  have hid := Array.getElem?_eq_getElem hlt
  exact ⟨_, hid, (hfits.uses _ _ hid).1⟩

/-- The block of a computed value belongs to its effect. -/
lemma value_of_computed {id : Nat} (hid : effect.linked.Computed id) :
    ∃ r, (use id).value = some (i, r) := by
  obtain ⟨place, s, p, hplace, -, hid⟩ := hid
  obtain ⟨r, hr, hid⟩ := LinkedEffect.blockOf?_eq_some_root.1 hid
  exact ⟨r, (hfits.uses r id hid).2.value ⟨s, LinkedEffect.mem_states_of_stateAt? hplace, hr⟩⟩

/-- A block with a computed value is used by one effect only. -/
lemma eq_of_computed {j : Nat} {other : Effect} (hother : other.Fits host use j) {id : Nat}
    (hid : effect.linked.Computed id) (hid' : other.linked.Owns id) : i = j := by
  obtain ⟨r, hvalue⟩ := hfits.value_of_computed hid
  obtain ⟨r', hr'⟩ := hid'
  have huses := (hother.uses r' id hr').2
  by_cases hroot : other.linked.IsValueRoot r'
  · have heq := huses.value hroot
    rw [hvalue, Option.some.injEq, Prod.mk.injEq] at heq
    exact heq.1
  · rw [huses.shared hroot] at hvalue
    cases hvalue

end Effect.Fits

namespace LinkedEffect

variable {e : LinkedEffect}

lemma owns_of_computed {id : Nat} (hid : e.Computed id) : e.Owns id := by
  obtain ⟨_, _, _, -, -, hid⟩ := hid
  exact owns_of_blockOf? hid

lemma owns_of_blocksOf {hs : List Handle} {id : Nat} (hid : e.BlocksOf hs id) : e.Owns id := by
  obtain ⟨_, -, hid⟩ := hid
  exact owns_of_blockOf? hid

end LinkedEffect

/-! ### Hosts that grow -/

/-- From one host to another, blocks, counters and pools only grow. -/
structure Host.Grows (use use' : Nat → BlockUse) (host host' : Host) : Prop where
  size_blocks : host.memory.blocks.size ≤ host'.memory.blocks.size
  size_counters : host.memory.counters.size ≤ host'.memory.counters.size
  counter_le : ∀ k, host.memory.counter k ≤ host'.memory.counter k
  use_eq : ∀ id < host.memory.blocks.size, use' id = use id
  pools : ∀ (p : Nat) (pool : Pool), host.pools[p]? = some pool →
    ∃ pool', host'.pools[p]? = some pool' ∧ Pool.Grows pool pool'

namespace Host.Grows

variable {use use' use'' : Nat → BlockUse} {host host' host'' : Host}

lemma of_pools (hblocks : host.memory.blocks.size ≤ host'.memory.blocks.size)
    (hcounters : host.memory.counters.size ≤ host'.memory.counters.size)
    (hcounter : ∀ k, host.memory.counter k ≤ host'.memory.counter k)
    (hpools : host'.pools = host.pools) : Grows use use host host' where
  size_blocks := hblocks
  size_counters := hcounters
  counter_le := hcounter
  use_eq _ _ := rfl
  pools _ pool hpool := ⟨pool, hpools ▸ hpool, .refl pool⟩

/-- Blocks, counters and pools are all that counts. -/
lemma of_eq (hblocks : host'.memory.blocks = host.memory.blocks)
    (hcounters : host'.memory.counters = host.memory.counters)
    (hpools : host'.pools = host.pools) : Grows use use host host' :=
  .of_pools (Nat.le_of_eq (congrArg _ hblocks.symm)) (Nat.le_of_eq (congrArg _ hcounters.symm))
    (fun _ => Nat.le_of_eq (by rw [Memory.counter, Memory.counter, hcounters])) hpools

lemma of_evolves {c : Nat} {W : Nat → Prop} (h : Memory.Evolves c W host.memory host'.memory)
    (hpools : host'.pools = host.pools) : Grows use use host host' :=
  .of_pools (Nat.le_of_eq h.size_blocks.symm) (Nat.le_of_eq h.size_counters.symm) h.counter_le
    hpools

lemma refl (use : Nat → BlockUse) (host : Host) : Grows use use host host :=
  .of_eq rfl rfl rfl

lemma trans (h : Grows use use' host host') (h' : Grows use' use'' host' host'') :
    Grows use use'' host host'' where
  size_blocks := Nat.le_trans h.size_blocks h'.size_blocks
  size_counters := Nat.le_trans h.size_counters h'.size_counters
  counter_le k := Nat.le_trans (h.counter_le k) (h'.counter_le k)
  use_eq id hid := (h'.use_eq id (Nat.lt_of_lt_of_le hid h.size_blocks)).trans (h.use_eq id hid)
  pools p pool hpool := by
    obtain ⟨pool', hpool', hgrows⟩ := h.pools p pool hpool
    obtain ⟨pool'', hpool'', hgrows'⟩ := h'.pools p pool' hpool'
    exact ⟨pool'', hpool'', hgrows.trans hgrows'⟩

end Host.Grows

/-- An effect fits a host that grew. -/
lemma Effect.Fits.grows {host host' : Host} {use use' : Nat → BlockUse} {i : Nat}
    {effect : Effect} (hfits : effect.Fits host use i) (hgrows : Host.Grows use use' host host') :
    effect.Fits host' use' i where
  linked := hfits.linked
  counter_lt := Nat.lt_of_lt_of_le hfits.counter_lt hgrows.size_counters
  size_roots := hfits.size_roots
  uses r id hid := by
    obtain ⟨hlt, huses⟩ := hfits.uses r id hid
    rw [hgrows.use_eq id hlt]
    exact ⟨Nat.lt_of_lt_of_le hlt hgrows.size_blocks, huses⟩
  shape := hfits.shape
  stamps stamps hstamps stamp hstamp :=
    Nat.le_trans (hfits.stamps stamps hstamps stamp hstamp) (hgrows.counter_le _)
  pool p hp := by
    obtain ⟨pool, hpool, hcounter, hagrees⟩ := hfits.pool p hp
    obtain ⟨pool', hpool', hpoolGrows⟩ := hgrows.pools p pool hpool
    exact ⟨pool', hpool', hpoolGrows.counter.trans hcounter,
      fun h hh => (hagrees h hh).grows hpoolGrows⟩

namespace Host.Layout

variable {host host' : Host} {use use' : Nat → BlockUse}

/-- Pools keep to the counters and blocks there are when a host grows. -/
lemma pools_of_grows (hlayout : host.Layout use) (hgrows : Grows use use' host host') :
    ∀ pool ∈ host.pools, pool.counter < host'.memory.counters.size ∧ ∀ entry ∈ pool.entries,
      entry.block < host'.memory.blocks.size ∧ use' entry.block = ⟨pool.counter, none⟩ := by
  intro pool hpool
  obtain ⟨hlt, hentries⟩ := hlayout.pools pool hpool
  refine ⟨Nat.lt_of_lt_of_le hlt hgrows.size_counters, fun entry hentry => ?_⟩
  obtain ⟨hblock, huse⟩ := hentries entry hentry
  exact ⟨Nat.lt_of_lt_of_le hblock hgrows.size_blocks, (hgrows.use_eq _ hblock).trans huse⟩

/-- A host with the same blocks, counters and pools is laid out if its effects fit and its devices
keep no defaults. -/
lemma of_eq (hlayout : host.Layout use) (hblocks : host'.memory.blocks = host.memory.blocks)
    (hcounters : host'.memory.counters = host.memory.counters) (hpools : host'.pools = host.pools)
    (heffects : ∀ (i : Nat) (effect : Effect), host'.effects[i]? = some (some effect) →
      effect.Fits host use i)
    (hdevices : ∀ d, (host'.device d).Canonical) : host'.Layout use where
  versions id := by
    rw [Memory.block, Memory.counter, hblocks, hcounters]
    exact hlayout.versions id
  pools := by
    rw [hblocks, hcounters, hpools]
    exact hlayout.pools
  effects i effect heffect := (heffects i effect heffect).grows (.of_eq hblocks hcounters hpools)
  devices := hdevices

end Host.Layout

end ShaderEffect
