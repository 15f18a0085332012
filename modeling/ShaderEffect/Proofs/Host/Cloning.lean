import ShaderEffect.Proofs.Host.Private
import ShaderEffect.Proofs.Link.Relink

/-!
# Cloning

An effect is cloned by linking its image again and copying its blocks. Linking again gives the same
nodes and binds the same parameters, since the pool has an entry for every shared name by then; and
blocks are copied only where the clone has a new one. So every effect can be cloned, nothing there
was is changed, and the clone has the values of the effect (`Host.exists_clones`).
-/

namespace ShaderEffect

/-! ### Twins -/

/-- Effects that were linked from one image for one pool: only their blocks may be different, and
the identities of the objects they held at first. -/
structure LinkedEffect.Twin (e e' : LinkedEffect) : Prop where
  image : e'.image = e.image
  skip : e'.skip = e.skip
  counter : e'.counter = e.counter
  pool : e'.pool = e.pool
  nodes : e'.tree.nodes = e.tree.nodes
  top : e'.tree.top = e.tree.top
  techniques : e'.techniques = e.techniques
  initial : e'.tree.initial.map Contents.anonymous = e.tree.initial.map Contents.anonymous

namespace LinkedEffect.Twin

variable {e e' : LinkedEffect} {host : Host}

lemma refl (e : LinkedEffect) : e.Twin e := ⟨rfl, rfl, rfl, rfl, rfl, rfl, rfl, rfl⟩

lemma symm (h : e.Twin e') : e'.Twin e :=
  ⟨h.image.symm, h.skip.symm, h.counter.symm, h.pool.symm, h.nodes.symm, h.top.symm,
    h.techniques.symm, h.initial.symm⟩

lemma node? (h : e.Twin e') (i : Handle) : e'.tree.node? i = e.tree.node? i := by
  rw [Tree.node?, Tree.node?, h.nodes]

lemma shares (h : e.Twin e') (name : String) (i : Handle) :
    e'.tree.shares name i = e.tree.shares name i := by
  rw [Tree.shares, Tree.shares, h.node?]

lemma bound (h : e.Twin e') {i : Handle} {q : Nat} {name : String}
    (hbound : host.Bound e i q name) : host.Bound e' i q name := by
  obtain ⟨t, ⟨htop, hshares, hpool, p, entry, hp, hrest⟩, hunder⟩ := hbound
  exact ⟨t, ⟨h.top ▸ htop, (h.shares name t).trans hshares, h.pool.trans hpool, p, entry,
    (h.node? t).trans hp, hrest⟩,
    hunder.mono fun j p hp => ⟨p, (h.node? j).trans hp, List.Subset.refl _⟩⟩

/-- The same parameters of twins are bound. -/
lemma bound_iff (h : e.Twin e') {i : Handle} {q : Nat} {name : String} :
    host.Bound e' i q name ↔ host.Bound e i q name :=
  ⟨h.symm.bound, h.bound⟩

end LinkedEffect.Twin

/-! ### Copying blocks -/

namespace Memory

/-- Copy one block to another, unless they are the same. -/
def copyOne (m : Memory) (pair : Nat × Nat) : Memory :=
  if pair.1 = pair.2 then m else m.setBlock pair.2 (m.block pair.1)

lemma block_copyOne_of_ne (m : Memory) {pair : Nat × Nat} {id : Nat}
    (h : pair.1 = pair.2 ∨ pair.2 ≠ id) : (m.copyOne pair).block id = m.block id := by
  rw [copyOne]
  split
  · rfl
  · rename_i hne
    rw [block_setBlock, if_neg fun hid => (h.resolve_left hne) hid.1]

lemma block_copyOne_self (m : Memory) {pair : Nat × Nat} (h : pair.2 < m.blocks.size) :
    (m.copyOne pair).block pair.2 = m.block pair.1 := by
  rw [copyOne]
  split
  · rename_i heq
    rw [heq]
  · rw [block_setBlock, if_pos ⟨rfl, h⟩]

lemma size_copyOne (m : Memory) (pair : Nat × Nat) :
    (m.copyOne pair).blocks.size = m.blocks.size := by
  rw [copyOne]
  split
  · rfl
  · exact size_blocks_setBlock ..

/-- What nothing is copied to stays. -/
lemma block_copies_of_not_mem {pairs : List (Nat × Nat)} {id : Nat}
    (hid : ∀ pair ∈ pairs, pair.2 ≠ id) (m : Memory) :
    (pairs.foldl copyOne m).block id = m.block id := by
  induction pairs generalizing m with
  | nil => rfl
  | cons pair rest ih =>
    rw [List.foldl_cons, ih fun p hp => hid p (List.mem_cons_of_mem _ hp)]
    exact m.block_copyOne_of_ne (.inr (hid pair List.mem_cons_self))

/-- If nothing is copied from a block that is copied to, nor twice to one, every block gets what the
one that is copied to it had. -/
lemma block_copies {pairs : List (Nat × Nat)} {m : Memory}
    (hlt : ∀ pair ∈ pairs, pair.2 < m.blocks.size)
    (hapart : ∀ pair ∈ pairs, ∀ other ∈ pairs, pair.1 ≠ pair.2 →
      pair.2 ≠ other.1 ∧ (pair.2 = other.2 → pair.1 = other.1)) {pair : Nat × Nat}
    (hpair : pair ∈ pairs) : (pairs.foldl copyOne m).block pair.2 = m.block pair.1 := by
  induction pairs generalizing m pair with
  | nil => cases hpair
  | cons first rest ih =>
    have hmem : ∀ {p}, p ∈ rest → p ∈ first :: rest := List.mem_cons_of_mem _
    have hrest : ∀ p ∈ rest, (rest.foldl copyOne (m.copyOne first)).block p.2 = m.block p.1 := by
      intro p hp
      rw [ih (fun p hp => m.size_copyOne first ▸ hlt p (hmem hp))
        (fun p hp p' hp' => hapart p (hmem hp) p' (hmem hp')) hp]
      refine m.block_copyOne_of_ne ?_
      by_cases heq : first.1 = first.2
      · exact .inl heq
      · exact .inr (hapart first List.mem_cons_self p (hmem hp) heq).1
    rw [List.foldl_cons]
    rcases List.mem_cons.1 hpair with rfl | hpair
    case inr => exact hrest pair hpair
    by_cases hagain : ∃ p ∈ rest, p.2 = pair.2
    · obtain ⟨p, hp, heq⟩ := hagain
      have hsource : p.1 = pair.1 := by
        by_cases hne : pair.1 = pair.2
        · by_contra hsource
          exact (hapart p (hmem hp) pair List.mem_cons_self fun h => hsource
            (h.trans (heq.trans hne.symm))).1 (heq.trans hne.symm)
        · exact ((hapart pair List.mem_cons_self p (hmem hp) hne).2 heq.symm).symm
      rw [← heq, hrest p hp, hsource]
    · rw [block_copies_of_not_mem fun p hp heq => hagain ⟨p, hp, heq⟩]
      exact m.block_copyOne_self (hlt pair List.mem_cons_self)

end Memory

namespace Host

variable {host : Host} {use : Nat → BlockUse} {owner : Nat → Owner} {i : Nat} {s : EffectState}

/-- The blocks of an effect get the values of the blocks that are copied to them. -/
lemma block_copyBlocks {source target : Array Nat} {m : Memory}
    (hlt : ∀ (r b : Nat), target[r]? = some b → b < m.blocks.size)
    (hapart : ∀ r a b r' a' b' : Nat, source[r]? = some a → target[r]? = some b →
      source[r']? = some a' → target[r']? = some b' → a ≠ b → b ≠ a' ∧ (b = b' → a = a'))
    {r a b : Nat} (ha : source[r]? = some a) (hb : target[r]? = some b) :
    (copyBlocks source target m).block b = m.block a := by
  have hzip : ∀ pair ∈ source.toList.zip target.toList, ∃ r : Nat,
      source[r]? = some pair.1 ∧ target[r]? = some pair.2 := by
    intro pair hpair
    obtain ⟨r, hr⟩ := List.mem_iff_getElem?.1 hpair
    rw [List.getElem?_zip_eq_some, Array.getElem?_toList, Array.getElem?_toList] at hr
    exact ⟨r, hr⟩
  have hpair : (a, b) ∈ source.toList.zip target.toList := by
    refine List.mem_iff_getElem?.2 ⟨r, ?_⟩
    rw [List.getElem?_zip_eq_some, Array.getElem?_toList, Array.getElem?_toList]
    exact ⟨ha, hb⟩
  refine Memory.block_copies (fun pair hpair => ?_) (fun pair hpair other hother hne => ?_) hpair
  · obtain ⟨r, -, hb⟩ := hzip pair hpair
    exact hlt r _ hb
  · obtain ⟨r, ha, hb⟩ := hzip pair hpair
    obtain ⟨r', ha', hb'⟩ := hzip other hother
    exact hapart r _ _ r' _ _ ha hb ha' hb' hne

/-! ### Linking again -/

/-- Nothing is added to pools that have entries for all names. -/
lemma pools_bindPool {tree : Tree} {pool : Option Nat} {own : Array Nat}
    (hentries : ∀ t ∈ tree.top, ∀ name, tree.shares name t = true → ∀ q, pool = some q →
      ∃ entry, host.entryOf? q name = some entry) :
    (host.bindPool tree pool own).2.pools = host.pools := by
  rw [bindPool]
  split
  case h_1 => rfl
  case h_2 q P hbind =>
    obtain ⟨q', rfl, hmap⟩ := Option.bind_eq_some_iff.1 hbind
    obtain ⟨P', hlookup, heq⟩ := Option.map_eq_some_iff.1 hmap
    obtain ⟨rfl, rfl⟩ := Prod.mk.inj heq
    have hsame : (Pool.bind tree tree.top P' own).1 = P' := by
      refine Pool.fst_bind_eq fun t ht name hshares => ?_
      obtain ⟨entry, hentry⟩ := hentries t ht name hshares q' rfl
      obtain ⟨P'', hlookup', hfind⟩ := entryOf?_eq_some.1 hentry
      obtain rfl := Option.some.inj (hlookup.symm.trans hlookup')
      exact ⟨entry, hfind⟩
    show host.pools.setIfInBounds q' (Pool.bind tree tree.top P' own).1 = host.pools
    rw [hsame]
    refine Array.ext_getElem? fun n => ?_
    rw [Array.getElem?_setIfInBounds]
    split
    · rename_i hn
      rw [← hn, hlookup, if_pos (Array.getElem?_eq_some_iff.1 hlookup).1]
    · rfl

/-- The image of an effect is linked again to a twin, and pools and counters stay as they are. -/
lemma exists_linkImage {effect : Effect} (hfits : effect.Fits host use i) : ∃ linked host',
    host.linkImage effect.linked.image effect.linked.skip effect.linked.pool effect.linked.counter =
      .ok (linked, host') ∧ effect.linked.Twin linked ∧ host'.pools = host.pools ∧
    host'.memory.counters = host.memory.counters := by
  obtain ⟨n, l, hlink, htree, htechniques⟩ := hfits.linked
  obtain ⟨l', hlink', hrelinked⟩ := Link.exists_relink hlink host.memory.nextObject
  have htwin : ∀ roots, effect.linked.Twin { effect.linked with
      tree := l'.tree, techniques := l'.techniques, roots } := fun roots =>
    ⟨rfl, rfl, rfl, rfl, htree ▸ hrelinked.nodes, htree ▸ hrelinked.top,
      htechniques ▸ hrelinked.techniques, htree ▸ hrelinked.initial⟩
  refine ⟨_, _, linkImage_eq_ok hlink', htwin _, ?_, ?_⟩
  · refine @pools_bindPool (host.withRoots l') _ _ _ fun t ht name hshares q hq => ?_
    exact exists_entryOf? hfits ((htwin #[]).top ▸ ht)
      (((htwin #[]).shares name t).symm.trans hshares) hq
  · show (Host.bindPool _ _ _ _).2.memory.counters = _
    rw [memory_bindPool]
    rfl

/-- A block that was not there before is that of one root. -/
lemma Enters.eq_of_roots {e : LinkedEffect} {host' : Host} (h : host.Enters e host')
    (hpools : host'.pools = host.pools) {r r' b : Nat} (hr : e.roots[r]? = some b)
    (hr' : e.roots[r']? = some b) (hle : host.memory.blocks.size ≤ b) : r = r' := by
  have hown : ∀ r, e.roots[r]? = some b → b = host.memory.blocks.size + r := fun r hr => by
    rcases h.roots r b hr with heq | ⟨q, name, entry, hentry, rfl, -⟩
    · exact heq
    · rw [entryOf?, hpools, ← entryOf?] at hentry
      exact absurd (h.old q name entry hentry).1 (Nat.not_lt.2 hle)
  exact Nat.add_left_cancel ((hown r hr).symm.trans (hown r' hr'))

/-- The blocks of a clone are copies of those of the effect. -/
lemma Links.block_copied {effect : Effect} (hfits : effect.Fits host use i) {k : Nat}
    {linked : LinkedEffect} {host' : Host} {use' : Nat → BlockUse}
    (hlinks : host.Links use k linked host' use') (htwin : effect.linked.Twin linked)
    (hpools : host'.pools = host.pools) (henters : host.Enters linked host') {r a b : Nat}
    (ha : effect.linked.roots[r]? = some a) (hb : linked.roots[r]? = some b) :
    (copyBlocks effect.linked.roots linked.roots host'.memory).block b = host.memory.block a := by
  have hlt : ∀ {r a : Nat}, effect.linked.roots[r]? = some a → a < host.memory.blocks.size :=
    fun ha => (hfits.uses _ _ ha).1
  rw [← hlinks.block_eq a (hlt ha)]
  refine block_copyBlocks (fun r b hb => (hlinks.fits.uses r b hb).1)
    (fun r a b r' a' b' ha hb ha' hb' hne => ?_) ha hb
  have hle := hlinks.le_of_ne hfits htwin.image htwin.skip htwin.pool ha hb hne
  refine ⟨fun heq => Nat.not_le.2 (hlt ha') (heq ▸ hle), fun heq => ?_⟩
  obtain rfl := henters.eq_of_roots hpools hb (heq ▸ hb') hle
  exact Option.some.inj (ha.symm.trans ha')

/-! ### Clones -/

/-- What cloning an effect comes to: nothing there was is changed, and the new effect is alike. -/
structure Clones (host : Host) (s : EffectState) (host' : Host) (s' : EffectState) : Prop where
  result : host.clone s.effect = .ok (host.effects.size, host')
  state : host'.state? host.effects.size = some s'
  pools : host'.pools = host.pools
  devices : host'.devices = host.devices
  counters : host'.memory.counters = host.memory.counters
  blocks : ∀ id < host.memory.blocks.size, host'.memory.block id = host.memory.block id
  /-- All effects there were are as they were, and so are their values and versions. -/
  others : ∀ j t, host.state? j = some t → ∃ t', host'.state? j = some t' ∧ t'.effect = t.effect ∧
    ∀ h, (∀ k, t'.values k h = t.values k h) ∧
      t'.linked.version t'.memory h = t.linked.version t.memory h
  twin : s.linked.Twin s'.linked
  technique : s'.effect.technique = s.effect.technique
  values : ∀ k h, s'.values k h = s.values k h

lemma Clones.perform {host' : Host} {s' : EffectState} (h : host.Clones s host' s')
    (hs : host.state? i = some s) : host.perform (.clone i) = host' := by
  rw [Host.perform, hs]
  simp only [h.result]

lemma Clones.entryOf?_eq {host' : Host} {s' : EffectState} (h : host.Clones s host' s') (q : Nat)
    (name : String) : host'.entryOf? q name = host.entryOf? q name := by
  rw [entryOf?, entryOf?, h.pools]

/-- Effects with the same node have the same values in it if they have the same values in their
blocks. -/
lemma values_congr {host' : Host} {use' : Nat → BlockUse} {j : Nat} {effect effect' : Effect}
    (hfits : effect.Fits host use i) (hfits' : effect'.Fits host' use' j) {h : Handle}
    (hnode : effect'.linked.tree.node? h = effect.linked.tree.node? h) {m m' : Memory}
    (hblock : ∀ r a b : Nat, effect.linked.roots[r]? = some a → effect'.linked.roots[r]? = some b →
      m'.block b = m.block a) (k : Storage) :
    effect'.linked.values m' k h = effect.linked.values m k h := by
  cases hp : effect.linked.tree.node? h with
  | none =>
    rw [effect'.linked.values_eq_nil (by rw [LinkedEffect.blockOf?, hnode, hp]; rfl),
      effect.linked.values_eq_nil (by rw [LinkedEffect.blockOf?, hp]; rfl)]
  | some p =>
    obtain ⟨a, ha, -⟩ := hfits.exists_root hp
    obtain ⟨b, hb, -⟩ := hfits'.exists_root (hnode.trans hp)
    rw [effect'.linked.values_eq_read (hnode.trans hp)
        (effect'.linked.blockOf?_eq_some.2 ⟨p, hnode.trans hp, hb⟩),
      effect.linked.values_eq_read hp (effect.linked.blockOf?_eq_some.2 ⟨p, hp, ha⟩),
      hblock p.root a b ha hb]

/-- Every effect can be cloned. -/
theorem exists_clones (hlayout : host.Layout use) (howned : host.Owned owner)
    (hs : host.state? i = some s) : ∃ host' s', host.Clones s host' s' := by
  have hfits := hlayout.effects i s.effect (state?_eq_some.1 hs).1
  obtain ⟨linked, made, hlinked, htwin, hpools, hcounters⟩ := exists_linkImage hfits
  have hpool : ∀ p, s.linked.pool = some p → ∃ pool, host.pools[p]? = some pool ∧
      pool.counter = s.linked.counter := fun p hp => (hfits.pool p hp).imp fun _ h => ⟨h.1, h.2.1⟩
  obtain ⟨use', hlinks, -⟩ :=
    links_linkImage hlayout hfits.counter_lt hpool hlinked host.effects.size
  have henters := enters_linkImage hlayout howned.distinct hpool hlinked
  have hcopied := hlinks.copy hfits htwin.image htwin.skip htwin.pool htwin.counter
  let effect' : Effect := { Effect.ofLinked linked with technique := s.effect.technique }
  let copied : Host := { made with
    memory := copyBlocks s.linked.roots linked.roots made.memory }
  have hsize : made.effects.size = host.effects.size := congrArg Array.size hlinks.effects
  refine ⟨(copied.addEffect effect').2, ⟨copied.memory, effect'⟩, {
    result := by
      rw [clone, hlinked, ← hsize]
      rfl
    state := hsize ▸ state?_addEffect copied effect'
    pools := hpools
    devices := hlinks.devices
    counters := (counters_copyBlocks ..).1.trans hcounters
    blocks := hcopied.block_eq
    others := fun j t ht => ?_
    twin := htwin
    technique := rfl
    values := fun k h => ?_ }⟩
  · obtain ⟨heffect, hmemory⟩ := state?_eq_some.1 ht
    have hfits' := hlayout.effects j t.effect heffect
    have hlt : j < host.effects.size := lt_of_state? ht
    refine ⟨⟨copied.memory, t.effect⟩, state?_eq_some.2 ⟨?_, rfl⟩, rfl, fun h => ⟨fun k => ?_, ?_⟩⟩
    · show (made.effects.push _)[j]? = _
      rw [Array.getElem?_push, hsize, if_neg (Nat.ne_of_lt hlt), hlinks.effects, heffect]
    · refine values_congr hfits' hfits' rfl (fun r a b ha hb => ?_) k
      obtain rfl := Option.some.inj (ha.symm.trans hb)
      rw [hmemory]
      exact hcopied.block_eq a (hfits'.uses r a ha).1
    · refine LinkedEffect.version_congr fun id hid => ?_
      rw [hmemory]
      exact hcopied.block_eq id (hfits'.lt_of_owns (LinkedEffect.owns_of_blockOf? hid))
  · rw [EffectState.values, EffectState.values, (state?_eq_some.1 hs).2]
    exact values_congr hfits hlinks.fits (htwin.node? h)
      (fun r a b ha hb => hlinks.block_copied hfits htwin hpools henters ha hb) k

end Host

end ShaderEffect
