import ShaderEffect.Proofs.Host.Effects
import ShaderEffect.Proofs.Link.Trees

/-!
# What is stored stays in its bounds

Every block is tiled by leaves, the same ones in all effects that are bound to it: a pool compares
the shapes of parameters, and these say which leaves there are. Sizes of blocks never change. So all
that nodes address is inside their blocks, and values that are recorded, reset or copied fit where
they go (`Host.Bounded`).
-/

namespace ShaderEffect

/-! ### Recorded values -/

/-- The entries of all blocks of recorded values, and of the one being recorded. -/
def Effect.entries (effect : Effect) : List BlockEntry :=
  effect.blocks.toList.flatMap (·.getD []) ++ effect.recording.getD []

/-- Whether a call writes parameters. -/
def Operation.writesValues : Operation → Bool
  | .set .. | .reset _ | .applyBlock _ => true
  | _ => false

namespace EffectState

variable {s s' : EffectState}

lemma Setting.blocks {hs : List Handle} (h : Setting s hs s') :
    s'.effect.blocks = s.effect.blocks := by
  obtain ⟨recording, heffect⟩ := h.effect
  rw [heffect]

lemma mem_entries_of_setting {hs : List Handle} (h : Setting s hs s') {entry : BlockEntry}
    (hentry : entry ∈ s'.effect.entries) : entry ∈ s.effect.entries ∨ s.Notes entry := by
  rw [Effect.entries, h.blocks] at hentry
  rcases List.mem_append.1 hentry with hentry | hentry
  · exact .inl (List.mem_append_left _ hentry)
  · exact (h.recorded entry hentry).imp_left (List.mem_append_right _)

/-- Calls that are not about the values of parameters leave what is recorded. -/
lemma blocks_of_not_setsValues (he : s.linked.Proper)
    (hc : s.linked.counter < s.memory.counters.size) (devices : Nat → Device) {op : Operation}
    (hop : op.setsValues = false) :
    (s.perform devices op).state.effect.blocks = s.effect.blocks ∧
      (s.perform devices op).state.effect.recording = s.effect.recording := by
  by_cases hpass : op.appliesPass = true
  · rcases passCall_perform he hc devices hpass with ⟨e, hrefuse⟩ | ⟨t, p, pass, hcall⟩
    · rw [hrefuse]
      exact ⟨rfl, rfl⟩
    · rw [hcall.applied.effect]
      exact ⟨rfl, rfl⟩
  · cases op with
    | begin device flags =>
      rw [perform, EffectState.begin]
      split
      · exact ⟨rfl, rfl⟩
      · dsimp only
        split <;> exact ⟨rfl, rfl⟩
    | setTechnique t =>
      rw [perform, setTechnique]
      split <;> exact ⟨rfl, rfl⟩
    | setManager manager => exact ⟨rfl, rfl⟩
    | endPass =>
      rw [perform, endPass]
      split
      · exact ⟨rfl, rfl⟩
      · rw [orKeep, setActive]
        split <;> exact ⟨rfl, rfl⟩
    | finish device =>
      rw [perform, finish]
      split <;> exact ⟨rfl, rfl⟩
    | beginPass device p | commit device => exact absurd rfl hpass
    | _ => cases hop

/-- What holds of a state and of that which a call succeeds with holds of the state that the call
leaves. -/
lemma orKeep_induction {motive : EffectState → Prop} {result : Except CallError EffectState}
    (hs : motive s) (hok : ∀ s', result = .ok s' → motive s') :
    motive (s.orKeep result).state := by
  cases result with
  | ok s' => exact hok s' rfl
  | error e => exact hs

/-- Calls that write no parameters record no values. -/
lemma mem_entries_of_not_writesValues (he : s.linked.Proper)
    (hc : s.linked.counter < s.memory.counters.size) (devices : Nat → Device) {op : Operation}
    (hop : op.writesValues = false) {entry : BlockEntry}
    (hentry : entry ∈ (s.perform devices op).state.effect.entries) : entry ∈ s.effect.entries := by
  by_cases hsets : op.setsValues = true
  · cases op with
    | beginBlock =>
      rw [perform, beginBlock] at hentry
      split at hentry
      · exact hentry
      · refine List.mem_append_left _ ?_
        rwa [orKeep, Effect.entries, Option.getD_some, List.append_nil] at hentry
    | endBlock =>
      rw [perform, endBlock] at hentry
      split at hentry
      · exact hentry
      · rename_i block hrecording
        rw [Effect.entries, hrecording]
        simpa [orKeep, Except.map, Effect.entries] using hentry
    | deleteBlock i =>
      rw [perform, deleteBlock] at hentry
      split at hentry
      · rename_i block hblock
        rcases List.mem_append.1 hentry with hentry | hentry
        · obtain ⟨block', hblock', hentry⟩ := List.mem_flatMap.1 hentry
          refine List.mem_append_left _ (List.mem_flatMap.2 ⟨block', ?_, hentry⟩)
          rcases Array.mem_or_eq_of_mem_setIfInBounds (Array.mem_toList_iff.1 hblock') with h | rfl
          · exact Array.mem_toList_iff.2 h
          · cases hentry
        · exact List.mem_append_right _ hentry
      · exact hentry
    | set h setter | reset h | applyBlock i => cases hop
    | _ => cases hsets
  · obtain ⟨hblocks, hrecording⟩ :=
      blocks_of_not_setsValues he hc devices (Bool.eq_false_iff.2 hsets)
    rwa [Effect.entries, hblocks, hrecording] at hentry

/-- What is recorded after a call was recorded before, or is what a parameter held meanwhile. -/
lemma mem_entries_perform (he : s.linked.Proper) (hc : s.linked.counter < s.memory.counters.size)
    (devices : Nat → Device) (op : Operation) {entry : BlockEntry}
    (hentry : entry ∈ (s.perform devices op).state.effect.entries) :
    entry ∈ s.effect.entries ∨ s.Notes entry := by
  by_cases hop : op.writesValues = true
  · have hsame : entry ∈ s.effect.entries → entry ∈ s.effect.entries ∨ s.Notes entry := .inl
    cases op with
    | set h setter =>
      exact orKeep_induction (motive := fun s' => entry ∈ s'.effect.entries → _) hsame
        (fun s' hs => mem_entries_of_setting (setting_set hc hs)) hentry
    | reset h =>
      exact orKeep_induction (motive := fun s' => entry ∈ s'.effect.entries → _) hsame
        (fun s' hs => mem_entries_of_setting (setting_resetValue hc hs)) hentry
    | applyBlock i =>
      exact orKeep_induction (motive := fun s' => entry ∈ s'.effect.entries → _) hsame
        (fun s' hs => mem_entries_of_setting (setting_applyBlock hc hs)) hentry
    | _ => cases hop
  · exact .inl (mem_entries_of_not_writesValues he hc devices (Bool.eq_false_iff.2 hop) hentry)

end EffectState

/-! ### Tiled blocks -/

/-- An entry has as many values as its parameter. -/
def LinkedEffect.Measures (e : LinkedEffect) (entry : BlockEntry) : Prop :=
  ∀ p, e.tree.node? entry.h = some p →
    entry.words.length = p.words.length ∧ entry.objects.length = p.objects.length

/-- Every block has room for its leaves, no more and no less. -/
def Memory.Tiled (m : Memory) (tiles : Nat → List Tile) : Prop :=
  ∀ id < m.blocks.size, ∀ k : Storage, k.size (m.block id).toContents = k.total (tiles id)

/-- An effect made from an image that was read, under whose roots are the leaves of their blocks. -/
structure Effect.Tiled (tiles : Nat → List Tile) (effect : Effect) : Prop where
  image : ∃ stored, Image.decode stored = .ok effect.linked.image
  lays : ∀ (r id : Nat), effect.linked.roots[r]? = some id →
    effect.linked.tree.Lays r (tiles id)
  recorded : ∀ entry ∈ effect.entries, effect.linked.Measures entry

/-- Every block of a host is tiled by leaves, and whoever uses it knows which. -/
structure Host.Tiled (host : Host) (tiles : Nat → List Tile) : Prop where
  memory : host.memory.Tiled tiles
  pools : ∀ pool ∈ host.pools, ∀ entry ∈ pool.entries,
    tiles entry.block = entry.shapes.filterMap NodeShape.tile?
  effects : ∀ (i : Nat) (effect : Effect), host.effects[i]? = some (some effect) →
    effect.Tiled tiles

variable {tiles tiles' : Nat → List Tile} {host : Host} {use : Nat → BlockUse}

lemma Memory.Tiled.evolves {m m' : Memory} {c : Nat} {W : Nat → Prop} (h : m.Tiled tiles)
    (hevolves : Memory.Evolves c W m m') : m'.Tiled tiles := by
  intro id hid k
  rw [← h id (hevolves.size_blocks ▸ hid) k]
  cases k with
  | words => exact hevolves.size_words id
  | objects => exact hevolves.size_objects id

lemma Effect.Tiled.congr {effect : Effect} (h : effect.Tiled tiles)
    (heq : ∀ (r id : Nat), effect.linked.roots[r]? = some id → tiles' id = tiles id) :
    effect.Tiled tiles' where
  image := h.image
  lays r id hid := heq r id hid ▸ h.lays r id hid
  recorded := h.recorded

lemma Tree.Lays.stop_le_of_node? {t : Tree} {r : Nat} {ls : List Tile} (hlays : t.Lays r ls)
    {h : Handle} {p : Parameter} (hp : t.node? h = some p) (hr : p.root = r) (k : Storage) :
    (k.slice p).stop ≤ k.total ls := by
  apply hlays.stop_le k p
  apply List.mem_filter.2
  exact ⟨Array.mem_toList_iff.2 (Array.mem_of_getElem? hp), by simpa using hr⟩

namespace Effect.Fits

variable {i : Nat} {effect : Effect} (hfits : effect.Fits host use i)
include hfits

/-- All values of a parameter are there to be read. -/
lemma length_values (htiled : effect.Tiled tiles) {m : Memory} (hm : m.Tiled tiles)
    (hsize : m.blocks.size = host.memory.blocks.size) {h : Handle} {p : Parameter}
    (hp : effect.linked.tree.node? h = some p) :
    (effect.linked.words m h).length = p.words.length ∧
      (effect.linked.objects m h).length = p.objects.length := by
  obtain ⟨id, hid, hlt⟩ := hfits.exists_root hp
  have hblock : effect.linked.blockOf? h = some id :=
    effect.linked.blockOf?_eq_some.2 ⟨p, hp, hid⟩
  have hstop : ∀ k : Storage, (k.slice p).stop ≤ k.size (m.block id).toContents := by
    intro k
    rw [hm id (hsize ▸ hlt)]
    exact (htiled.lays p.root id hid).stop_le_of_node? hp rfl k
  rw [LinkedEffect.words, LinkedEffect.objects, hp, hblock]
  constructor
  · exact Slice.length_read_of_stop_le (hstop .words)
  · exact Slice.length_read_of_stop_le (hstop .objects)

/-- Effects of the same image have as many roots, and the same leaves under them. -/
lemma of_same_image {host' : Host} {use' : Nat → BlockUse} {j : Nat} {effect' : Effect}
    (hfits' : effect'.Fits host' use' j) (himage : effect'.linked.image = effect.linked.image)
    (hskip : effect'.linked.skip = effect.linked.skip) :
    effect'.linked.roots.size = effect.linked.roots.size ∧
      ∀ r ls, effect.linked.tree.Lays r ls → effect'.linked.tree.Lays r ls := by
  obtain ⟨n, l, hlink, htree, -⟩ := hfits.linked
  obtain ⟨n', l', hlink', htree', -⟩ := hfits'.linked
  rw [himage, hskip] at hlink'
  have hskeleton : Link.SameSkeleton l l' :=
    (Link.attaches_link hlink).skeleton.symm.trans (Link.attaches_link hlink').skeleton
  rw [hfits'.size_roots, hfits.size_roots, htree, htree']
  exact ⟨hskeleton.size_initial, fun r ls => hskeleton.lays⟩

end Effect.Fits

namespace Host

/-! ### Calls -/

lemma tiled_call (hlayout : host.Layout use) (h : host.Tiled tiles) (i : Nat) (op : Operation) :
    (host.perform (.call i op)).Tiled tiles := by
  cases hs : host.state? i with
  | none =>
    rw [perform_call_of_none hs]
    exact h
  | some s =>
    obtain ⟨heffect, hmemory⟩ := state?_eq_some.1 hs
    have hfits := hlayout.effects i s.effect heffect
    have hc : s.linked.counter < s.memory.counters.size := hmemory ▸ hfits.counter_lt
    have hleaves := EffectState.leaves_perform hfits.proper hc host.device op
    have htiled := h.effects i s.effect heffect
    have hs' := state?_perform_call hs op
    refine ⟨?_, fun pool hpool => h.pools pool (pools_perform_call host i op ▸ hpool),
      fun j effect' heffect' => ?_⟩
    · rw [(perform_call hs op).1]
      exact Memory.Tiled.evolves (hmemory ▸ h.memory) hleaves.evolves
    · rcases effects_perform_call hs heffect' with ⟨rfl, rfl⟩ | ⟨-, heffect'⟩
      · have hlinked : (s.perform host.device op).state.effect.linked = s.effect.linked :=
          hleaves.linked
        refine ⟨hlinked ▸ htiled.image, hlinked ▸ htiled.lays, fun entry hentry => ?_⟩
        rw [hlinked]
        rcases EffectState.mem_entries_perform hfits.proper hc host.device op hentry with
          hentry | ⟨W, m, hevolves, hwords, hobjects⟩
        · exact htiled.recorded entry hentry
        · intro p hp
          rw [hwords, hobjects]
          refine hfits.length_values htiled (Memory.Tiled.evolves (hmemory ▸ h.memory) hevolves) ?_
            hp
          rw [hevolves.size_blocks, hmemory]
      · exact h.effects j effect' heffect'

/-! ### Making effects -/

/-- A pool gets the block of a parameter together with the shapes that tile it. -/
def IsTiledBy (tiles : Nat → List Tile) (shapes : List NodeShape) (id : Nat) : Prop :=
  tiles id = shapes.filterMap NodeShape.tile?

/-- Blocks that a host gets for what was linked are tiled if their initial contents are. -/
lemma Tiled.bindsPool (hlayout : host.Layout use) (h : host.Tiled tiles) {l : Link.Linking}
    {tiles' : Nat → List Tile} (hold : ∀ id < host.memory.blocks.size, tiles' id = tiles id)
    (hnew : ∀ r < l.tree.initial.size, l.tree.Lays r (tiles' (host.memory.blocks.size + r)))
    {pool : Option Nat} {counter : Nat} {roots : Array Nat} {host' : Host}
    (hb : (host.withRoots l).BindsPool l.tree pool counter (IsTiledBy tiles') (host.ownRoots l)
      roots host') : host'.Tiled tiles' where
  memory := by
    rw [hb.memory]
    intro id hid k
    rw [size_blocks_withRoots] at hid
    by_cases hlt : id < host.memory.blocks.size
    · rw [hold id hlt, block_withRoots_of_lt host l hlt]
      exact h.memory id hlt k
    · obtain ⟨r, rfl⟩ := Nat.exists_eq_add_of_le (Nat.le_of_not_lt hlt)
      obtain ⟨c, hc, hsize⟩ := (hnew r (by omega)).size
      rw [toContents_block_withRoots host l hc]
      exact hsize k
  pools pool' hpool' := by
    rcases hb.pools pool' hpool' with hpool' | ⟨-, htiled⟩
    · intro entry hentry
      rw [hold _ ((hlayout.pools pool' hpool').2 entry hentry).1]
      exact h.pools pool' hpool' entry hentry
    · exact htiled
  effects i effect heffect := by
    rw [hb.effects] at heffect
    have hfits := hlayout.effects i effect heffect
    exact (h.effects i effect heffect).congr fun r id hid => hold id (hfits.uses r id hid).1

/-- Leaves of blocks go on from others: blocks that are there have the same leaves, and a block for
a root of what is linked has those under the root. -/
structure Extends (host : Host) (image : Image) (skip : List String)
    (tiles tiles' : Nat → List Tile) : Prop where
  old : ∀ id < host.memory.blocks.size, tiles' id = tiles id
  new : ∀ l, Link.link image skip host.memory.nextObject = .ok l →
    ∀ r < l.tree.initial.size, l.tree.Lays r (tiles' (host.memory.blocks.size + r))

/-- An image that is linked gets blocks that are tiled by what is under its roots, and shares only
blocks that are tiled by the same. -/
lemma tiled_linkImage (hlayout : host.Layout use) (h : host.Tiled tiles) {image : Image}
    (himage : ∃ stored, Image.decode stored = .ok image) {skip : List String} {pool : Option Nat}
    {counter : Nat} {linked : LinkedEffect} {host' : Host}
    (hpool : ∀ p, pool = some p → ∃ pool', host.pools[p]? = some pool' ∧ pool'.counter = counter)
    (hlink : host.linkImage image skip pool counter = .ok (linked, host')) :
    ∃ tiles', host.Extends image skip tiles tiles' ∧ host'.Tiled tiles' ∧
      (Effect.ofLinked linked).Tiled tiles' := by
  obtain ⟨stored, hdecode⟩ := himage
  obtain ⟨l, hl, rfl, rfl⟩ := exists_of_linkImage_eq_ok hlink
  have htiled := Link.tiled_link hl
  choose! leaves hleaves using htiled.roots
  let n := host.memory.blocks.size
  let tiles' := fun id => if id < n then tiles id else leaves (id - n)
  have hold : ∀ id < n, tiles' id = tiles id := fun id hid => if_pos hid
  have hnew : ∀ r < l.tree.initial.size, l.tree.Lays r (tiles' (n + r)) := by
    intro r hr
    simp only [tiles', Nat.not_lt.2 (Nat.le_add_right n r), if_false, Nat.add_sub_cancel_left]
    exact hleaves r hr
  have hown : ∀ h ∈ l.tree.top, ∀ p, l.tree.node? h = some p → p.root < l.tree.initial.size →
      IsTiledBy tiles' p.node.shapes (n + p.root) :=
    fun h hh p hp hr => (hnew p.root hr).unique (htiled.lays_of_mem_top hdecode hh hp)
  have hb := bindsPool_withRoots hl hown hpool fun pool' hpool' _ entry hentry =>
    (hold _ ((hlayout.pools pool' hpool').2 entry hentry).1).trans
      (h.pools pool' hpool' entry hentry)
  have hextends : host.Extends image skip tiles tiles' := ⟨hold, fun l' hl' => by
    obtain rfl := Except.ok.inj (hl.symm.trans hl')
    exact hnew⟩
  refine ⟨tiles', hextends, h.bindsPool hlayout hold hnew hb, ⟨stored, hdecode⟩, fun r id hid => ?_,
    fun entry hentry => by cases hentry⟩
  rcases hb.roots r with hsame | ⟨i, hi, p, name, entry, q, pool', hp, rfl, -, -, -, -, -, hshapes,
    hgood, hblock⟩
  · obtain ⟨hr, rfl⟩ := host.eq_of_getElem?_ownRoots l (hsame ▸ hid)
    exact hnew r hr
  · obtain rfl : entry.block = id := Option.some.inj (hblock.symm.trans hid)
    rw [show tiles' entry.block = entry.shapes.filterMap NodeShape.tile? from hgood, hshapes]
    exact htiled.lays_of_mem_top hdecode hi hp

lemma Tiled.addEffect (h : host.Tiled tiles) {effect : Effect} (heffect : effect.Tiled tiles) :
    (host.addEffect effect).2.Tiled tiles := by
  refine ⟨h.memory, h.pools, fun i effect' heffect' => ?_⟩
  rcases effects_addEffect host effect heffect' with ⟨-, rfl⟩ | heffect'
  · exact heffect
  · exact h.effects i effect' heffect'

lemma tiled_createPool (h : host.Tiled tiles) : (host.perform .createPool).Tiled tiles := by
  refine ⟨h.memory, fun pool hpool => ?_, h.effects⟩
  rcases Array.mem_push.1 hpool with hpool | rfl
  · exact h.pools pool hpool
  · intro entry hentry
    cases hentry

/-- An effect that is made gets blocks that are tiled by what is under its roots. -/
lemma tiled_made {base : Host} {image : Image} {skip : List String} {pool : Option Nat}
    {linked : LinkedEffect} {made : Host} (hmade : MadeOn use host base image skip pool linked made)
    (h : host.Tiled tiles) (himage : ∃ stored, Image.decode stored = .ok image) :
    ∃ tiles', base.Extends image skip tiles tiles' ∧ made.Tiled tiles' ∧
      (Effect.ofLinked linked).Tiled tiles' := by
  obtain ⟨pool', counter, -, hpool, hlink⟩ := hmade.linkImage
  have hbase : base.Tiled tiles := by
    refine ⟨?_, hmade.pools ▸ h.pools, hmade.effects ▸ h.effects⟩
    have hmemory := h.memory
    rw [Memory.Tiled] at hmemory ⊢
    simpa only [Memory.block, hmade.blocks] using hmemory
  exact tiled_linkImage hmade.layout hbase himage hpool hlink

lemma tiled_create (hlayout : host.Layout use) (h : host.Tiled tiles) {image : Image}
    (himage : ∃ stored, Image.decode stored = .ok image) (skip : List String)
    (pool : Option Nat) : ∃ tiles', (host.perform (.create image skip pool)).Tiled tiles' := by
  rw [perform]
  cases hcreate : host.create image skip pool with
  | error e => exact ⟨tiles, h⟩
  | ok result =>
    obtain ⟨i, host'⟩ := result
    obtain ⟨base, linked, made, hmade, -, rfl⟩ := exists_of_create_eq_ok hlayout hcreate
    obtain ⟨tiles', -, h', heffect⟩ := tiled_made hmade h himage
    exact ⟨tiles', h'.addEffect heffect⟩

/-! ### Clones -/

/-- What is linked again from the image of an effect has the same leaves in its blocks. -/
lemma tiled_relink (hlayout : host.Layout use) (h : host.Tiled tiles) {i : Nat} {effect : Effect}
    (heffect : host.effects[i]? = some (some effect)) {linked : LinkedEffect} {host' : Host}
    (hlink : host.linkImage effect.linked.image effect.linked.skip effect.linked.pool
      effect.linked.counter = .ok (linked, host')) :
    ∃ tiles', host.Extends effect.linked.image effect.linked.skip tiles tiles' ∧
      host'.Tiled tiles' ∧ (Effect.ofLinked linked).Tiled tiles' ∧
      linked.roots.size = effect.linked.roots.size ∧
      ∀ r a b : Nat, effect.linked.roots[r]? = some a → linked.roots[r]? = some b →
        a < host'.memory.blocks.size ∧ b < host'.memory.blocks.size ∧ tiles' a = tiles' b := by
  have hfits := hlayout.effects i effect heffect
  have htiled := h.effects i effect heffect
  have hpool : ∀ p, effect.linked.pool = some p →
      ∃ pool', host.pools[p]? = some pool' ∧ pool'.counter = effect.linked.counter :=
    fun p hp => (hfits.pool p hp).imp fun _ h => ⟨h.1, h.2.1⟩
  obtain ⟨use', hlinks, himage, hskip, -⟩ :=
    links_linkImage hlayout hfits.counter_lt hpool hlink host.effects.size
  obtain ⟨tiles', hextends, h', htiled'⟩ := tiled_linkImage hlayout h htiled.image hpool hlink
  obtain ⟨hsize, hlays⟩ := hfits.of_same_image hlinks.fits himage hskip
  refine ⟨tiles', hextends, h', htiled', hsize, fun r a b ha hb => ?_⟩
  have hlt := (hfits.uses r a ha).1
  refine ⟨Nat.lt_of_lt_of_le hlt hlinks.grows.size_blocks, (hlinks.fits.uses r b hb).1, ?_⟩
  rw [hextends.old a hlt]
  exact (hlays r _ (htiled.lays r a ha)).unique (htiled'.lays r b hb)

/-- To copy blocks of the same leaves keeps blocks tiled. -/
lemma tiled_copyBlocks {source target : Array Nat} {m : Memory} (hm : m.Tiled tiles)
    (hsame : ∀ r a b : Nat, source[r]? = some a → target[r]? = some b →
      a < m.blocks.size ∧ b < m.blocks.size ∧ tiles a = tiles b) :
    (copyBlocks source target m).Tiled tiles := by
  let holds := fun id (block : Block) => id < m.blocks.size →
    ∀ k : Storage, k.size block.toContents = k.total (tiles id)
  have hcopied : ∀ id, holds id ((copyBlocks source target m).block id) := by
    refine copyBlocks_induction (fun id => hm id) fun r a b ha hb _ block hblock _ => ?_
    obtain ⟨hlt, -, heq⟩ := hsame r a b ha hb
    rw [← heq]
    exact hblock hlt
  intro id hid
  exact hcopied id ((counters_copyBlocks source target m).2 ▸ hid)

/-- A clone that has the values of another effect is tiled like it. -/
lemma tiled_addClone {linked : LinkedEffect} {source : Array Nat} (h : host.Tiled tiles)
    (hlinked : (Effect.ofLinked linked).Tiled tiles)
    (hsame : ∀ r a b : Nat, source[r]? = some a → linked.roots[r]? = some b →
      a < host.memory.blocks.size ∧ b < host.memory.blocks.size ∧ tiles a = tiles b)
    (technique : Option Nat) :
    (addEffect { host with memory := copyBlocks source linked.roots host.memory }
      { Effect.ofLinked linked with technique }).2.Tiled tiles := by
  let copied : Host := { host with memory := copyBlocks source linked.roots host.memory }
  have hcopied : copied.Tiled tiles := ⟨tiled_copyBlocks h.memory hsame, h.pools, h.effects⟩
  exact hcopied.addEffect ⟨hlinked.image, hlinked.lays, fun entry hentry => by cases hentry⟩

lemma tiled_clone (hlayout : host.Layout use) (h : host.Tiled tiles) (i : Nat) :
    ∃ tiles', (host.perform (.clone i)).Tiled tiles' := by
  rw [perform]
  cases hs : host.state? i with
  | none => exact ⟨tiles, h⟩
  | some s =>
    obtain ⟨heffect, -⟩ := state?_eq_some.1 hs
    dsimp only
    cases hclone : host.clone s.effect with
    | error e => exact ⟨tiles, h⟩
    | ok result =>
      obtain ⟨⟨linked, host'⟩, hlink, hclone⟩ := exists_of_bind_eq_ok hclone
      cases hclone
      obtain ⟨tiles', -, h', hlinked, -, hsame⟩ := tiled_relink hlayout h heffect hlink
      exact ⟨tiles', tiled_addClone h' hlinked hsame s.effect.technique⟩

end Host

/-! ### Runs -/

/-- Effects are made only from images that were read. -/
def HostOperation.FromStored : HostOperation → Prop
  | .create image _ _ => ∃ stored, Image.decode stored = .ok image
  | _ => True

namespace Host

/-- Every operation keeps blocks tiled. -/
lemma tiled_perform (hlayout : host.Layout use) (h : host.Tiled tiles) {op : HostOperation}
    (hop : op.FromStored) : ∃ tiles', (host.perform op).Tiled tiles' := by
  cases op with
  | createPool => exact ⟨tiles, tiled_createPool h⟩
  | create image skip pool => exact tiled_create hlayout h hop skip pool
  | clone i => exact tiled_clone hlayout h i
  | drop i =>
    exact ⟨tiles, h.memory, h.pools,
      fun j effect heffect => h.effects j effect (effects_of_drop heffect)⟩
  | share | send => exact ⟨tiles, h.memory, h.pools, h.effects⟩
  | call i op => exact ⟨tiles, tiled_call hlayout h i op⟩

lemma tiled_run {ops : List HostOperation} (hops : ∀ op ∈ ops, op.FromStored)
    (hlayout : host.Layout use) (h : host.Tiled tiles) :
    ∃ use' tiles', (host.run ops).Layout use' ∧ (host.run ops).Tiled tiles' := by
  induction ops generalizing host use tiles with
  | nil => exact ⟨use, tiles, hlayout, h⟩
  | cons op rest ih =>
    obtain ⟨use', hsteps⟩ := steps_perform hlayout op
    obtain ⟨tiles', h'⟩ := tiled_perform hlayout h (hops op List.mem_cons_self)
    exact ih (fun op' hop' => hops op' (List.mem_cons_of_mem _ hop')) hsteps.layout h'

lemma tiled_empty : Tiled {} tiles :=
  ⟨fun id hid => (by cases hid), fun pool hpool => (by simp at hpool),
    fun i effect heffect => by simp at heffect⟩

/-! ### Bounds -/

/-- Everything that the effects of a host address is there, and in bounds. -/
structure Bounded (host : Host) : Prop where
  /-- What a node addresses is inside the block of its root, and inside what the root held when the
  effect was made. -/
  slices : ∀ i s, host.state? i = some s → ∀ h p, s.tree.node? h = some p →
    ∃ id c, s.linked.blockOf? h = some id ∧ id < host.memory.blocks.size ∧
      s.tree.initial[p.root]? = some c ∧ ∀ k : Storage,
        (k.slice p).stop ≤ k.size (host.memory.block id).toContents ∧ (k.slice p).stop ≤ k.size c
  /-- The block of a root has the size of what the root held when the effect was made. -/
  sizes : ∀ i s, host.state? i = some s → ∀ (r : Nat) c, s.tree.initial[r]? = some c →
    ∃ id, s.linked.roots[r]? = some id ∧ id < host.memory.blocks.size ∧
      ∀ k : Storage, k.size (host.memory.block id).toContents = k.size c
  /-- A place of a block is addressed by one leaf under each root that is bound to the block, by all
  of these leaves at the same part of the block, and all have the same class, type and shape. -/
  leaves : ∀ id < host.memory.blocks.size, ∀ (k : Storage) (j : Nat),
    j < k.size (host.memory.block id).toContents → ∃ shape slice, ∀ i s (r : Nat),
      host.state? i = some s → s.linked.roots[r]? = some id → ∃ h p, s.tree.LeafAt k r j h p ∧
        p.decl.shape = shape ∧ k.slice p = slice ∧
        ∀ h' p', s.tree.LeafAt k r j h' p' → h' = h
  /-- All values of a parameter are there to be read. -/
  reads : ∀ i s, host.state? i = some s → ∀ h p, s.tree.node? h = some p →
    (s.words h).length = p.words.length ∧ (s.objects h).length = p.objects.length
  /-- As many values are recorded of a parameter as will be given back. -/
  recorded : ∀ i s, host.state? i = some s → ∀ entry ∈ s.effect.entries, s.linked.Measures entry
  /-- If an effect is cloned, the blocks that are copied have the sizes of those they are copied
  to. -/
  copies : ∀ i s, host.state? i = some s → ∀ linked host',
    host.linkImage s.linked.image s.linked.skip s.linked.pool s.linked.counter =
      .ok (linked, host') →
    linked.roots.size = s.linked.roots.size ∧
    ∀ r a b : Nat, s.linked.roots[r]? = some a → linked.roots[r]? = some b →
      a < host'.memory.blocks.size ∧ b < host'.memory.blocks.size ∧ ∀ k : Storage,
        k.size (host'.memory.block a).toContents = k.size (host'.memory.block b).toContents

lemma bounded_of_tiled (hlayout : host.Layout use) (h : host.Tiled tiles) : host.Bounded where
  slices i s hs handle p hp := by
    obtain ⟨heffect, -⟩ := state?_eq_some.1 hs
    obtain ⟨id, hid, hlt⟩ := (hlayout.effects i s.effect heffect).exists_root hp
    have hlays := (h.effects i s.effect heffect).lays p.root id hid
    obtain ⟨c, hc, hsize⟩ := hlays.size
    refine ⟨id, c, s.linked.blockOf?_eq_some.2 ⟨p, hp, hid⟩, hlt, hc, fun k => ?_⟩
    rw [h.memory id hlt k, hsize k]
    exact ⟨hlays.stop_le_of_node? hp rfl k, hlays.stop_le_of_node? hp rfl k⟩
  sizes i s hs r c hc := by
    obtain ⟨heffect, -⟩ := state?_eq_some.1 hs
    have hfits := hlayout.effects i s.effect heffect
    have hr : r < s.linked.roots.size :=
      Nat.lt_of_lt_of_eq (Array.getElem?_eq_some_iff.1 hc).1 hfits.size_roots.symm
    have hid := Array.getElem?_eq_getElem hr
    have hlt := (hfits.uses r _ hid).1
    obtain ⟨c', hc', hsize⟩ := ((h.effects i s.effect heffect).lays r _ hid).size
    obtain rfl : c' = c := Option.some.inj (hc'.symm.trans hc)
    exact ⟨_, hid, hlt, fun k => by rw [h.memory _ hlt k, hsize k]⟩
  leaves id hid k j hj := by
    rw [h.memory id hid k] at hj
    obtain ⟨x, hx, hhas⟩ :=
      Storage.exists_mem_spots (Nat.zero_le j) (Nat.lt_of_lt_of_eq hj (Nat.zero_add _).symm)
    refine ⟨x.1, x.2, fun i s r hs hr => ?_⟩
    have hlays := (h.effects i s.effect (state?_eq_some.1 hs).1).lays r id hr
    obtain ⟨handle, p, hleaf, hshape, hslice⟩ := hlays.exists_leafAt hx hhas
    exact ⟨handle, p, hleaf, hshape, hslice, fun h' p' hleaf' => hlays.leafAt_unique hleaf' hleaf⟩
  reads i s hs handle p hp := by
    obtain ⟨heffect, hmemory⟩ := state?_eq_some.1 hs
    rw [EffectState.words, EffectState.objects, hmemory]
    exact (hlayout.effects i s.effect heffect).length_values (h.effects i s.effect heffect)
      h.memory rfl hp
  recorded i s hs := (h.effects i s.effect (state?_eq_some.1 hs).1).recorded
  copies i s hs linked host' hlink := by
    obtain ⟨tiles', -, h', -, hsize, hsame⟩ :=
      tiled_relink hlayout h (state?_eq_some.1 hs).1 hlink
    refine ⟨hsize, fun r a b ha hb => ?_⟩
    obtain ⟨hlt, hlt', heq⟩ := hsame r a b ha hb
    exact ⟨hlt, hlt', fun k => by rw [h'.memory a hlt k, h'.memory b hlt' k, heq]⟩

lemma Bounded.of_run {ops : List HostOperation} (hops : ∀ op ∈ ops, op.FromStored) :
    (run {} ops).Bounded := by
  obtain ⟨use, hlayout⟩ := laidOut_empty
  obtain ⟨use', tiles, hlayout', h⟩ := tiled_run hops hlayout (@tiled_empty fun _ => [])
  exact bounded_of_tiled hlayout' h

/-- In every host that comes about from images that were read, all that is stored is in bounds. -/
theorem bounded_run {ops : List HostOperation} (hops : ∀ op ∈ ops, op.FromStored) :
    (run {} ops).Bounded :=
  .of_run hops

/-- An effect of one parameter that is shared: a struct of a text and two numbers. -/
def lamp : WrittenEffect where
  parameters := [⟨.struct "lamp" [.object 4 "label", (WrittenType.scalar 3 "power").array 2],
    [.word 0, .word 7, .word 9], 1, []⟩]
  techniques := []
  objectCount := 1
  objectData := []
  resources := []

/-- Two effects and a clone share a parameter. A number of it is written and recorded, all is reset
through the clone, and what was recorded is given back. -/
def shareLamp (im : Image) : List HostOperation :=
  [.createPool, .create im [] (some 0), .create im [] (some 0), .clone 0, .call 0 .beginBlock,
    .call 0 (.set ⟨3⟩ (.float ⟨5⟩)), .call 0 .endBlock, .call 2 (.reset ⟨0⟩), .drop 1,
    .call 0 (.applyBlock 0)]

/-- The clone reads what was given back, and all is in bounds. -/
theorem bounded_run_shareLamp :
    ∃ im, Image.decode (Image.encode lamp).toArray = .ok im ∧
      (∃ s ∈ (run {} (shareLamp im)).state? 2, s.words ⟨0⟩ = [5, 9]) ∧
      (run {} (shareLamp im)).Bounded := by
  obtain ⟨im, hdecode, hwords⟩ : ∃ im,
      (Image.decode (Image.encode lamp).toArray).toOption = some im ∧
        ∃ s ∈ (run {} (shareLamp im)).state? 2, s.words ⟨0⟩ = [5, 9] := by
    decide +kernel
  have hok := Image.eq_ok_of_toOption_eq_some hdecode
  refine ⟨im, hok, hwords, bounded_run fun op hop => ?_⟩
  simp only [shareLamp, List.mem_cons, List.not_mem_nil, or_false] at hop
  rcases hop with rfl | rfl | rfl | rfl | rfl | rfl | rfl | rfl | rfl | rfl
  all_goals first | exact True.intro | exact ⟨_, hok⟩

end Host

end ShaderEffect
