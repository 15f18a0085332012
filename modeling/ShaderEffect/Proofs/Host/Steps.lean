import ShaderEffect.Proofs.Host.Making

/-!
# Operations on a host

Every operation keeps the layout of a host, whatever effect it is on. What it changes of the blocks
that were there is what it writes, and what the pass it applies computes; and all that is stamped
with an update later than those before (`Host.Steps`).
-/

namespace ShaderEffect

namespace Host

/-- The blocks of the values that an operation computes. -/
def Computes (host : Host) (op : HostOperation) (id : Nat) : Prop :=
  ∃ i op' s, op = .call i op' ∧ host.state? i = some s ∧ op'.computes = true ∧
    s.linked.Computed id

/-- What an operation leaves of a host that was laid out. -/
structure Steps (use : Nat → BlockUse) (host : Host) (op : HostOperation) (host' : Host)
    (use' : Nat → BlockUse) : Prop where
  layout : host'.Layout use'
  grows : Grows use use' host host'
  size_words : ∀ id < host.memory.blocks.size,
    (host'.memory.block id).words.size = (host.memory.block id).words.size
  size_objects : ∀ id < host.memory.blocks.size,
    (host'.memory.block id).objects.size = (host.memory.block id).objects.size
  unchanged_or_stamped : ∀ id < host.memory.blocks.size,
    host'.memory.block id = host.memory.block id ∨
    (host.Written op id ∨ host.Computes op id) ∧
      host.memory.counter (use id).counter < (host'.memory.block id).version ∧
      (host'.memory.block id).version ≤ host'.memory.counter (use id).counter
  stamped : ∀ id, host.Written op id →
    host.memory.counter (use id).counter < (host'.memory.block id).version

variable {host : Host} {use : Nat → BlockUse}

lemma state?_eq_some {i : Nat} {s : EffectState} :
    host.state? i = some s ↔ host.effects[i]? = some (some s.effect) ∧ s.memory = host.memory := by
  rw [state?]
  split
  case h_1 effect heffect =>
    rw [heffect, Option.some.injEq, Option.some.injEq, Option.some.injEq]
    constructor
    · rintro rfl
      exact ⟨rfl, rfl⟩
    · rintro ⟨rfl, hmemory⟩
      rw [← hmemory]
  case h_2 hnone =>
    exact ⟨fun h => (by cases h), fun h => absurd h.1 (hnone _)⟩

/-- An operation that is no call to an effect and keeps the blocks there are. -/
lemma Steps.of_block_eq {op : HostOperation} {host' : Host} {use' : Nat → BlockUse}
    (hop : ∀ i op', op ≠ .call i op') (hlayout : host'.Layout use')
    (hgrows : Grows use use' host host')
    (hblock : ∀ id < host.memory.blocks.size, host'.memory.block id = host.memory.block id) :
    Steps use host op host' use' where
  layout := hlayout
  grows := hgrows
  size_words id hid := by rw [hblock id hid]
  size_objects id hid := by rw [hblock id hid]
  unchanged_or_stamped id hid := .inl (hblock id hid)
  stamped := by
    rintro id ⟨i, op', s, h, -⟩
    exact absurd h (hop i op')

/-- An operation that is no call to an effect and keeps blocks, counters and pools. -/
lemma Steps.of_eq {op : HostOperation} {host' : Host} (hop : ∀ i op', op ≠ .call i op')
    (hlayout : host'.Layout use) (hblocks : host'.memory.blocks = host.memory.blocks)
    (hcounters : host'.memory.counters = host.memory.counters)
    (hpools : host'.pools = host.pools) : Steps use host op host' use :=
  .of_block_eq hop hlayout (.of_eq hblocks hcounters hpools) fun id _ => by
    rw [Memory.block, Memory.block, hblocks]

/-! ### Devices -/

lemma device_send (host : Host) (d d' : Nat) (calls : List DeviceCall) :
    (host.send d calls).device d' =
      if d = d' then (host.device d).applyAll calls else host.device d' := by
  rw [device, send, Table.get?_insert]
  by_cases h : d = d'
  · rw [if_pos (congrArg _ h), if_pos h]
    rfl
  · rw [if_neg fun hrank => h (TableKey.rank_injective _ _ hrank), if_neg h]
    rfl

lemma canonical_send (h : ∀ d, (host.device d).Canonical) (d : Nat) (calls : List DeviceCall)
    (d' : Nat) : ((host.send d calls).device d').Canonical := by
  rw [device_send]
  split
  · exact (h d).applyAll calls
  · exact h d'

lemma Layout.send (h : host.Layout use) (d : Nat) (calls : List DeviceCall) :
    (host.send d calls).Layout use :=
  h.of_eq rfl rfl rfl h.effects (canonical_send h.devices d calls)

/-! ### Calls to effects -/

/-- What counts as applied may change. -/
lemma fits_of_applied {i : Nat} {effect effect' : Effect}
    (hfits : effect.Fits host use i) (hlinked : effect'.linked = effect.linked)
    (hshape : effect'.applied.map List.length = effect.applied.map List.length)
    (hstamps : ∀ stamps ∈ effect'.applied, ∀ stamp ∈ stamps,
      stamp ≤ host.memory.counter effect.linked.counter) : effect'.Fits host use i where
  linked := hlinked ▸ hfits.linked
  counter_lt := hlinked ▸ hfits.counter_lt
  size_roots := hlinked ▸ hfits.size_roots
  uses := hlinked ▸ hfits.uses
  shape := hlinked ▸ hshape.trans hfits.shape
  stamps := hlinked ▸ hstamps
  pool := hlinked ▸ hfits.pool

/-- An effect still fits after a call. -/
lemma fits_perform {i : Nat} {effect : Effect} (hfits : effect.Fits host use i) (op : Operation)
    {host' : Host}
    (hmemory : host'.memory =
      (EffectState.perform ⟨host.memory, effect⟩ host.device op).state.memory)
    (hpools : host'.pools = host.pools) :
    (EffectState.perform ⟨host.memory, effect⟩ host.device op).state.effect.Fits host' use i := by
  have he := hfits.proper
  have hc := hfits.counter_lt
  have hleaves := EffectState.leaves_perform (s := ⟨host.memory, effect⟩) he hc host.device op
  have hevolves := hleaves.evolves
  rw [← hmemory] at hevolves
  have hgrows : Grows use use host host' := .of_evolves hevolves hpools
  have hfits' := hfits.grows hgrows
  have hlinked := hleaves.linked
  simp only [EffectState.linked] at hlinked
  by_cases hcompletes : ∃ t p, EffectState.Completes ⟨host.memory, effect⟩ host.device op t p
  · obtain ⟨t, p, hcompletes⟩ := hcompletes
    obtain ⟨happlied, hlt⟩ := EffectState.applied_of_completes he hc hcompletes
    rw [← hmemory] at hlt
    refine fits_of_applied hfits' hlinked ?_ ?_ <;> rw [happlied]
    · exact Link.map_modify_eq (fun _ => List.length_set) _ _
    · intro stamps hmem stamp hstamp
      rcases Link.mem_of_mem_modify hmem with hmem | ⟨stamps', hmem', rfl⟩
      · exact hfits'.stamps stamps hmem stamp hstamp
      · rcases List.mem_or_eq_of_mem_set hstamp with hstamp | rfl
        · exact hfits'.stamps stamps' hmem' stamp hstamp
        · exact hlt
  · have happlied := EffectState.applied_of_not_completes (s := ⟨host.memory, effect⟩) he hc
      fun t p h => hcompletes ⟨t, p, h⟩
    exact fits_of_applied hfits' hlinked (by rw [happlied]) (by rw [happlied]; exact hfits'.stamps)

lemma effects_setState (host : Host) (i j : Nat) (s : EffectState) {effect : Effect}
    (h : (host.setState i s).effects[j]? = some (some effect)) :
    i = j ∧ effect = s.effect ∨ i ≠ j ∧ host.effects[j]? = some (some effect) := by
  rw [setState, Array.getElem?_setIfInBounds] at h
  split at h
  · rename_i hij
    split at h
    · cases h
      exact .inl ⟨hij, rfl⟩
    · cases h
  · rename_i hij
    exact .inr ⟨hij, h⟩

/-- A call to an effect, before the device calls it makes are carried out. -/
lemma steps_setState (hlayout : host.Layout use) {i : Nat} {effect : Effect}
    (heffect : host.effects[i]? = some (some effect)) (op : Operation) :
    Steps use host (.call i op)
      (host.setState i (EffectState.perform ⟨host.memory, effect⟩ host.device op).state) use := by
  have hfits := hlayout.effects i effect heffect
  have hleaves := EffectState.leaves_perform (s := ⟨host.memory, effect⟩) hfits.proper
    hfits.counter_lt host.device op
  have hfits' : Effect.Fits
      (host.setState i (EffectState.perform ⟨host.memory, effect⟩ host.device op).state) use i
      (EffectState.perform ⟨host.memory, effect⟩ host.device op).state.effect :=
    fits_perform hfits op rfl rfl
  generalize (EffectState.perform ⟨host.memory, effect⟩ host.device op).state = s' at *
  have hevolves := hleaves.evolves
  have hstate : host.state? i = some ⟨host.memory, effect⟩ := state?_eq_some.2 ⟨heffect, rfl⟩
  have hwritten : ∀ id, host.Written (.call i op) id ↔
      effect.linked.BlocksOf (EffectState.written ⟨host.memory, effect⟩ op) id := by
    intro id
    constructor
    · rintro ⟨_, _, s, h, hs, hid⟩
      cases h
      obtain rfl := Option.some.inj (hstate.symm.trans hs)
      exact hid
    · exact fun hid => ⟨i, op, _, rfl, hstate, hid⟩
  have hgrows : Grows use use host (host.setState i s') := .of_evolves hevolves rfl
  have hstamped : ∀ id, s'.memory.block id = host.memory.block id ∨
      (host.Written (.call i op) id ∨ host.Computes (.call i op) id) ∧
        host.memory.counter (use id).counter < (s'.memory.block id).version ∧
        (s'.memory.block id).version ≤ s'.memory.counter (use id).counter := by
    intro id
    refine (hevolves.unchanged_or_stamped id).imp_right fun ⟨hid, hstamp⟩ => ?_
    have howns : effect.linked.Owns id := by
      rcases hid with hid | ⟨-, hid⟩
      · exact LinkedEffect.owns_of_blocksOf hid
      · exact LinkedEffect.owns_of_computed hid
    rw [hfits.counter_of_owns howns]
    exact ⟨hid.imp (hwritten id).2 fun hid => ⟨i, op, _, rfl, hstate, hid⟩, hstamp⟩
  refine {
    layout := ⟨fun id => ?_, hlayout.pools_of_grows hgrows, fun j effect' heffect' => ?_,
      hlayout.devices⟩
    grows := hgrows
    size_words := fun id _ => hevolves.size_words id
    size_objects := fun id _ => hevolves.size_objects id
    unchanged_or_stamped := fun id _ => hstamped id
    stamped := fun id hid => ?_ }
  · rcases hstamped id with hsame | ⟨-, -, hle⟩
    · show (s'.memory.block id).version ≤ _
      rw [hsame]
      exact Nat.le_trans (hlayout.versions id) (hevolves.counter_le _)
    · exact hle
  · rcases effects_setState host i j s' heffect' with ⟨rfl, rfl⟩ | ⟨-, heffect'⟩
    · exact hfits'
    · exact (hlayout.effects j effect' heffect').grows hgrows
  · have hid := (hwritten id).1 hid
    have howns := LinkedEffect.owns_of_blocksOf hid
    rw [hfits.counter_of_owns howns]
    exact hleaves.stamped id hid (hfits.lt_of_owns howns)

lemma Steps.refl_call (hlayout : host.Layout use) {i : Nat} (hnone : host.state? i = none)
    (op : Operation) : Steps use host (.call i op) host use where
  layout := hlayout
  grows := .refl use host
  size_words _ _ := rfl
  size_objects _ _ := rfl
  unchanged_or_stamped _ _ := .inl rfl
  stamped := by
    rintro id ⟨j, op', s, h, hs, -⟩
    cases h
    rw [hnone] at hs
    cases hs

lemma Steps.send {op : HostOperation} {host' : Host} {use' : Nat → BlockUse}
    (h : Steps use host op host' use') (d : Nat) (calls : List DeviceCall) :
    Steps use host op (host'.send d calls) use' where
  layout := h.layout.send d calls
  grows := ⟨h.grows.size_blocks, h.grows.size_counters, h.grows.counter_le, h.grows.use_eq,
    h.grows.pools⟩
  size_words := h.size_words
  size_objects := h.size_objects
  unchanged_or_stamped := h.unchanged_or_stamped
  stamped := h.stamped

lemma steps_call (hlayout : host.Layout use) (i : Nat) (op : Operation) :
    Steps use host (.call i op) (host.perform (.call i op)) use := by
  rw [perform]
  cases hs : host.state? i with
  | none => exact .refl_call hlayout hs op
  | some s =>
    obtain ⟨heffect, hmemory⟩ := state?_eq_some.1 hs
    obtain ⟨memory, effect⟩ := s
    obtain rfl : memory = host.memory := hmemory
    simp only
    split
    · exact (steps_setState hlayout heffect op).send _ _
    · exact steps_setState hlayout heffect op

/-! ### Pools and effects that are made -/

lemma counter_newCounter (m : Memory) (k : Nat) : m.newCounter.2.counter k = m.counter k := by
  simp only [Memory.counter, Memory.newCounter, Array.getD_eq_getD_getElem?, Array.getElem?_push]
  split
  · rename_i hk
    rw [hk, Array.getElem?_eq_none (Nat.le_refl _)]
    rfl
  · rfl

/-- A counter more leaves a host laid out. -/
lemma Layout.newCounter (hlayout : host.Layout use) :
    Layout { host with memory := host.memory.newCounter.2 } use ∧
      Grows use use host { host with memory := host.memory.newCounter.2 } := by
  have hsize : host.memory.newCounter.2.counters.size = host.memory.counters.size + 1 :=
    Array.size_push ..
  have hgrows : Grows use use host { host with memory := host.memory.newCounter.2 } :=
    .of_pools (Nat.le_refl _) (by rw [hsize]; omega)
      (fun k => Nat.le_of_eq (counter_newCounter _ k).symm) rfl
  refine ⟨⟨fun id => ?_, hlayout.pools_of_grows hgrows, fun i effect heffect => ?_,
    hlayout.devices⟩, hgrows⟩
  · rw [counter_newCounter]
    exact hlayout.versions id
  · exact (hlayout.effects i effect heffect).grows hgrows

lemma steps_createPool (hlayout : host.Layout use) :
    Steps use host .createPool (host.perform .createPool) use := by
  obtain ⟨hcounter, hgrows⟩ := hlayout.newCounter
  have hgrows' : Grows use use { host with memory := host.memory.newCounter.2 }
      (host.perform .createPool) := by
    refine ⟨Nat.le_refl _, Nat.le_refl _, fun _ => Nat.le_refl _, fun _ _ => rfl,
      fun p pool hpool => ⟨pool, ?_, .refl pool⟩⟩
    have hp : p < host.pools.size := (Array.getElem?_eq_some_iff.1 hpool).1
    exact (Array.getElem?_push.trans (if_neg (Nat.ne_of_lt hp))).trans hpool
  refine .of_block_eq (fun _ _ h => by cases h) ?_ (hgrows.trans hgrows') fun _ _ => rfl
  refine ⟨hcounter.versions, fun pool hpool => ?_, fun i effect heffect => ?_, hlayout.devices⟩
  · rcases Array.mem_push.1 hpool with hpool | rfl
    · exact hcounter.pools pool hpool
    · exact ⟨by simp [perform, createPool, Memory.newCounter], fun entry hentry => by cases hentry⟩
  · exact (hcounter.effects i effect heffect).grows hgrows'

/-- An effect that is there after one was added is that one, or was there before. -/
lemma effects_addEffect (host : Host) (added : Effect) {i : Nat} {effect : Effect}
    (h : (host.addEffect added).2.effects[i]? = some (some effect)) :
    i = host.effects.size ∧ effect = added ∨ host.effects[i]? = some (some effect) := by
  rw [addEffect, Array.getElem?_push] at h
  split at h
  · rename_i hi
    cases h
    exact .inl ⟨hi, rfl⟩
  · exact .inr h

lemma Layout.addEffect (hlayout : host.Layout use) {effect : Effect}
    (hfits : effect.Fits host use host.effects.size) : (host.addEffect effect).2.Layout use := by
  refine hlayout.of_eq rfl rfl rfl (fun i effect' heffect' => ?_) hlayout.devices
  rcases effects_addEffect host effect heffect' with ⟨rfl, rfl⟩ | heffect'
  · exact hfits
  · exact hlayout.effects i effect' heffect'

/-- A host that linked an image gains the effect. -/
lemma Links.addEffect {linked : LinkedEffect} {host' : Host} {use' : Nat → BlockUse}
    (hlinks : host.Links use host.effects.size linked host' use') {effect : Effect}
    (hfits : effect.Fits host' use' host.effects.size) {op : HostOperation}
    (hop : ∀ i op', op ≠ .call i op') : Steps use host op (host'.addEffect effect).2 use' := by
  have hgrows : Grows use' use' host' (host'.addEffect effect).2 := .of_eq rfl rfl rfl
  refine .of_block_eq hop (hlinks.layout.addEffect ?_) (hlinks.grows.trans hgrows) hlinks.block_eq
  rw [hlinks.effects]
  exact hfits

lemma steps_create (hlayout : host.Layout use) (image : Image) (skip : List String)
    (pool : Option Nat) :
    ∃ use', Steps use host (.create image skip pool) (host.perform (.create image skip pool))
      use' := by
  have hop : ∀ i op', HostOperation.create image skip pool ≠ .call i op' := fun _ _ h => by cases h
  rw [perform]
  cases hcreate : host.create image skip pool with
  | error e => exact ⟨use, .of_block_eq hop hlayout (.refl use host) fun _ _ => rfl⟩
  | ok result =>
    rw [create] at hcreate
    split at hcreate
    · rename_i P hbind
      obtain ⟨p, rfl, hlookup⟩ := Option.bind_eq_some_iff.1 hbind
      obtain ⟨⟨linked, host'⟩, hlink, hcreate⟩ := exists_of_bind_eq_ok hcreate
      cases hcreate
      obtain ⟨use', hlinks, -⟩ := links_linkImage hlayout
        (hlayout.pools P (Array.mem_of_getElem? hlookup)).1
        (fun q hq => ⟨P, Option.some.inj hq ▸ hlookup, rfl⟩) hlink host.effects.size
      exact ⟨use', hlinks.addEffect hlinks.fits hop⟩
    · obtain ⟨⟨linked, host'⟩, hlink, hcreate⟩ := exists_of_bind_eq_ok hcreate
      cases hcreate
      obtain ⟨hcounter, hgrows⟩ := hlayout.newCounter
      obtain ⟨use', hlinks, -⟩ := links_linkImage hcounter
        (by simp [Memory.newCounter]) (fun q hq => by cases hq) hlink host.effects.size
      have hsteps := Links.addEffect hlinks hlinks.fits hop
      exact ⟨use', .of_block_eq hop hsteps.layout (hgrows.trans hsteps.grows) fun id hid =>
        hlinks.block_eq id hid⟩

/-! ### Clones -/

lemma counters_copyBlocks (source target : Array Nat) (m : Memory) :
    (copyBlocks source target m).counters = m.counters ∧
      (copyBlocks source target m).blocks.size = m.blocks.size := by
  rw [copyBlocks]
  induction source.toList.zip target.toList generalizing m with
  | nil => exact ⟨rfl, rfl⟩
  | cons pair rest ih =>
    obtain ⟨a, b⟩ := pair
    rw [List.foldl_cons]
    dsimp only
    split
    · exact ih m
    · obtain ⟨hcounters, hsize⟩ := ih (m.setBlock b (m.block a))
      exact ⟨hcounters, hsize.trans (Memory.size_blocks_setBlock ..)⟩

/-- What holds of all blocks, and passes from blocks to those they are copied to, holds of all
blocks after copying. -/
lemma copyBlocks_induction {holds : Nat → Block → Prop} {source target : Array Nat} {m : Memory}
    (hm : ∀ id, holds id (m.block id))
    (hcopy : ∀ r a b : Nat, source[r]? = some a → target[r]? = some b → a ≠ b →
      ∀ block, holds a block → holds b block) (id : Nat) :
    holds id ((copyBlocks source target m).block id) := by
  have hpairs : ∀ pair ∈ source.toList.zip target.toList, pair.1 ≠ pair.2 →
      ∀ block, holds pair.1 block → holds pair.2 block := by
    intro pair hpair
    obtain ⟨r, hr⟩ := List.mem_iff_getElem?.1 hpair
    rw [List.getElem?_zip_eq_some, Array.getElem?_toList, Array.getElem?_toList] at hr
    exact hcopy r pair.1 pair.2 hr.1 hr.2
  rw [copyBlocks]
  generalize source.toList.zip target.toList = pairs at hpairs
  induction pairs generalizing m with
  | nil => exact hm id
  | cons pair rest ih =>
    rw [List.foldl_cons]
    refine ih (fun other => ?_) fun p hp => hpairs p (List.mem_cons_of_mem _ hp)
    obtain ⟨a, b⟩ := pair
    dsimp only
    split
    · exact hm other
    · rename_i hab
      rw [Memory.block_setBlock]
      split
      · rename_i hother
        obtain ⟨rfl, -⟩ := hother
        exact hpairs (a, b) List.mem_cons_self hab _ (hm a)
      · exact hm other

/-- Where an effect and its clone have different blocks, that of the clone is new. -/
lemma Links.le_of_ne {i : Nat} {effect : Effect} (hfits : effect.Fits host use i) {k : Nat}
    {linked : LinkedEffect} {host' : Host} {use' : Nat → BlockUse}
    (hlinks : host.Links use k linked host' use') (himage : linked.image = effect.linked.image)
    (hskip : linked.skip = effect.linked.skip) (hpool : linked.pool = effect.linked.pool)
    {r a b : Nat} (ha : effect.linked.roots[r]? = some a) (hb : linked.roots[r]? = some b)
    (hab : a ≠ b) : host.memory.blocks.size ≤ b := by
  rcases hlinks.roots r b hb with hle | ⟨h, hh, p, name, entry, q, pool', hp, rfl, hflags, hname,
    hq, hlookup, hentry, hshapes, rfl⟩
  · exact hle
  · -- The parameter is shared by the source too, and with the same entry.
    obtain ⟨n, l, hlink, htree, -⟩ := hlinks.fits.linked
    obtain ⟨n', l', hlink', htree', -⟩ := hfits.linked
    simp only [Effect.ofLinked, himage, hskip] at hlink htree
    have hskeleton : Link.SameSkeleton l l' :=
      (Link.attaches_link hlink).skeleton.symm.trans (Link.attaches_link hlink').skeleton
    rw [htree] at hp hh
    obtain ⟨p', hp', hnode, hflags', hroot, -⟩ := hskeleton.exists_node? hp
    obtain ⟨pool, hlookup', -, hagrees⟩ := hfits.pool q (hpool ▸ hq)
    obtain ⟨pool'', hlookup'', hgrows⟩ := hlinks.grows.pools q pool hlookup'
    obtain rfl := Option.some.inj (hlookup.symm.trans hlookup'')
    rw [htree'] at hagrees
    obtain ⟨entry', hentry', hblock⟩ := hagrees h (hskeleton.top ▸ hh) p' name hp'
      (hflags' ▸ hflags) (by rw [Parameter.decl, hnode]; exact hname)
    obtain rfl := Option.some.inj (hentry.symm.trans (hgrows.find? _ _ hentry'))
    have ha' := hblock (hnode ▸ hshapes)
    rw [hroot, ha] at ha'
    exact absurd (Option.some.inj ha') hab

/-- Copying values into new blocks leaves a host laid out. -/
lemma Links.copy {i : Nat} {effect : Effect}
    (hfits : effect.Fits host use i) {k : Nat} {linked : LinkedEffect} {host' : Host}
    {use' : Nat → BlockUse} (hlinks : host.Links use k linked host' use')
    (himage : linked.image = effect.linked.image) (hskip : linked.skip = effect.linked.skip)
    (hpool : linked.pool = effect.linked.pool) (hcounter : linked.counter = effect.linked.counter) :
    host.Links use k linked { host' with
      memory := copyBlocks effect.linked.roots linked.roots host'.memory } use' := by
  obtain ⟨hcounters, hblocks⟩ :=
    counters_copyBlocks effect.linked.roots linked.roots host'.memory
  have hcounterEq : ∀ k, (copyBlocks effect.linked.roots linked.roots host'.memory).counter k =
      host'.memory.counter k := fun k => by rw [Memory.counter, Memory.counter, hcounters]
  have hgrows : Grows use' use' host' { host' with
      memory := copyBlocks effect.linked.roots linked.roots host'.memory } :=
    .of_pools (Nat.le_of_eq hblocks.symm) (Nat.le_of_eq (congrArg _ hcounters).symm)
      (fun k => Nat.le_of_eq (hcounterEq k).symm) rfl
  let holds := fun id (block : Block) => if id < host.memory.blocks.size then
      block = host'.memory.block id
    else block.version ≤ host'.memory.counter (use' id).counter
  have hcopied : ∀ id,
      holds id ((copyBlocks effect.linked.roots linked.roots host'.memory).block id) := by
    refine copyBlocks_induction (fun id => ?_) fun r a b ha hb hab block hblock => ?_
    · dsimp only [holds]
      split
      · rfl
      · exact hlinks.layout.versions id
    · obtain ⟨hlt, huses⟩ := hfits.uses r a ha
      have hle := hlinks.le_of_ne hfits himage hskip hpool ha hb hab
      have huses' := (hlinks.fits.uses r b hb).2
      dsimp only [holds] at hblock ⊢
      rw [if_pos hlt] at hblock
      have hversion := hlinks.layout.versions a
      rw [if_neg (by omega), hblock, huses'.counter]
      rw [hlinks.grows.use_eq a hlt, huses.counter, ← hcounter] at hversion
      exact hversion
  refine {
    layout := ⟨fun id => ?_, hlinks.layout.pools_of_grows hgrows, fun j effect' heffect' => ?_,
      hlinks.layout.devices⟩
    grows := hlinks.grows.trans hgrows
    fits := hlinks.fits.grows hgrows
    block_eq := fun id hid => ?_
    counter_eq := fun k => (hcounterEq k).trans (hlinks.counter_eq k)
    effects := hlinks.effects
    devices := hlinks.devices
    roots := hlinks.roots }
  · have hid := hcopied id
    rw [hcounterEq]
    dsimp only [holds] at hid
    split at hid
    · rw [hid]
      exact hlinks.layout.versions id
    · exact hid
  · exact (hlinks.layout.effects j effect' heffect').grows hgrows
  · have hid' := hcopied id
    dsimp only [holds] at hid'
    rw [if_pos hid] at hid'
    exact hid'.trans (hlinks.block_eq id hid)

lemma steps_clone (hlayout : host.Layout use) (i : Nat) :
    ∃ use', Steps use host (.clone i) (host.perform (.clone i)) use' := by
  have hop : ∀ j op', HostOperation.clone i ≠ .call j op' := fun _ _ h => by cases h
  have hsame : Steps use host (.clone i) host use :=
    .of_block_eq hop hlayout (.refl use host) fun _ _ => rfl
  rw [perform]
  cases hs : host.state? i with
  | none => exact ⟨use, hsame⟩
  | some s =>
    obtain ⟨heffect, -⟩ := state?_eq_some.1 hs
    have hfits := hlayout.effects i s.effect heffect
    simp only
    cases hclone : host.clone s.effect with
    | error e => exact ⟨use, hsame⟩
    | ok result =>
      obtain ⟨⟨linked, host'⟩, hlink, hclone⟩ := exists_of_bind_eq_ok hclone
      cases hclone
      obtain ⟨use', hlinks, himage, hskip, hpool, hcounter⟩ := links_linkImage hlayout
        hfits.counter_lt (fun p hp => (hfits.pool p hp).imp fun _ h => ⟨h.1, h.2.1⟩) hlink
        host.effects.size
      have hcopied := hlinks.copy hfits himage hskip hpool hcounter
      have hfits' : Effect.Fits _ use' host.effects.size
          { Effect.ofLinked linked with technique := s.effect.technique } :=
        fits_of_applied hcopied.fits rfl rfl hcopied.fits.stamps
      exact ⟨use', hcopied.addEffect hfits' hop⟩

/-! ### All operations -/

/-- Dropping an effect leaves the others. -/
lemma effects_of_drop {i j : Nat} {effect : Effect}
    (h : (host.drop i).effects[j]? = some (some effect)) :
    host.effects[j]? = some (some effect) := by
  rw [Host.drop, Array.getElem?_setIfInBounds] at h
  split at h
  · split at h <;> cases h
  · exact h

/-- Every operation keeps the layout of a host. -/
theorem steps_perform (hlayout : host.Layout use) (op : HostOperation) :
    ∃ use', Steps use host op (host.perform op) use' := by
  cases op with
  | createPool => exact ⟨use, steps_createPool hlayout⟩
  | create image skip pool => exact steps_create hlayout image skip pool
  | clone i => exact steps_clone hlayout i
  | drop i =>
    exact ⟨use, .of_eq (fun _ _ h => by cases h) (hlayout.of_eq rfl rfl rfl
      (fun j effect heffect => hlayout.effects j effect (effects_of_drop heffect))
      hlayout.devices) rfl rfl rfl⟩
  | share =>
    exact ⟨use, .of_eq (fun _ _ h => by cases h)
      (hlayout.of_eq rfl rfl rfl hlayout.effects hlayout.devices) rfl rfl rfl⟩
  | send d calls =>
    exact ⟨use, .of_eq (fun _ _ h => by cases h) (hlayout.send d calls) rfl rfl rfl⟩
  | call i op => exact ⟨use, steps_call hlayout i op⟩

lemma laidOut_empty : LaidOut {} := by
  refine ⟨fun _ => ⟨0, none⟩, fun id => ?_, fun pool hpool => ?_, fun i effect heffect => ?_,
    fun d => ?_⟩
  · exact Nat.le_of_eq rfl
  · simp at hpool
  · simp at heffect
  · exact Device.canonical_default

/-- Every host that can come about is laid out. -/
theorem Reachable.laidOut (h : host.Reachable) : host.LaidOut := by
  obtain ⟨ops, rfl⟩ := h
  have hrun : ∀ host : Host, host.LaidOut → (host.run ops).LaidOut := by
    induction ops with
    | nil => exact fun _ h => h
    | cons op rest ih =>
      rintro host ⟨use, hlayout⟩
      obtain ⟨use', hsteps⟩ := steps_perform hlayout op
      exact ih _ ⟨use', hsteps.layout⟩
  exact hrun {} laidOut_empty

end Host

end ShaderEffect
