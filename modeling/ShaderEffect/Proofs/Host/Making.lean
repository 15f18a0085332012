import ShaderEffect.Proofs.Host.Layout

/-!
# Making effects

An effect that is made gets blocks of its own, except for parameters that it shares through a pool.
So no block that was in use changes, and none that holds the value of a state is used twice. A clone
copies values into its own blocks only, since it shares what the effect it is cloned from shares.
-/

namespace ShaderEffect

/-! ### Allocation -/

namespace Memory

variable (m : Memory) (contents : Array Contents)

lemma block_allocate_of_lt {id : Nat} (h : id < m.blocks.size) :
    (m.allocate contents).2.block id = m.block id := by
  simp [block, allocate, Array.getElem?_append_left h]

lemma version_block_allocate {id : Nat} (h : m.blocks.size ≤ id) :
    ((m.allocate contents).2.block id).version = 0 := by
  simp only [block, allocate, Array.getD_eq_getD_getElem?, Array.getElem?_append_right h,
    Array.getElem?_map]
  cases contents[id - m.blocks.size]? <;> rfl

lemma toContents_block_allocate {r : Nat} {c : Contents} (h : contents[r]? = some c) :
    ((m.allocate contents).2.block (m.blocks.size + r)).toContents = c := by
  simp [block, allocate, Array.getElem?_append_right, h]

lemma size_blocks_allocate :
    (m.allocate contents).2.blocks.size = m.blocks.size + contents.size := by
  simp [allocate]

lemma getElem?_fst_allocate (r : Nat) :
    (m.allocate contents).1[r]? = if r < contents.size then some (m.blocks.size + r) else none := by
  simp only [allocate, Array.getElem?_map, Array.getElem?_range]
  split <;> rfl

lemma eq_of_getElem?_fst_allocate {r id : Nat} (h : (m.allocate contents).1[r]? = some id) :
    r < contents.size ∧ id = m.blocks.size + r := by
  rw [getElem?_fst_allocate] at h
  split at h
  · rename_i hr
    exact ⟨hr, (Option.some.inj h).symm⟩
  · cases h

lemma size_fst_allocate : (m.allocate contents).1.size = contents.size := by
  simp [allocate]

end Memory

/-! ### Binding to the pool of a host -/

namespace Host

/-- What binding the parameters of a tree to a pool of a host comes to. -/
structure BindsPool (host : Host) (tree : Tree) (pool : Option Nat) (counter : Nat)
    (good : List NodeShape → Nat → Prop) (own roots : Array Nat) (host' : Host) : Prop where
  memory : host'.memory = host.memory
  effects : host'.effects = host.effects
  devices : host'.devices = host.devices
  size_roots : roots.size = own.size
  pools : ∀ pool' ∈ host'.pools, pool' ∈ host.pools ∨
    pool'.counter = counter ∧ ∀ entry ∈ pool'.entries, good entry.shapes entry.block
  grows : ∀ (p : Nat) (pool : Pool), host.pools[p]? = some pool →
    ∃ pool', host'.pools[p]? = some pool' ∧ Pool.Grows pool pool'
  agrees : ∀ p, pool = some p → ∃ pool', host'.pools[p]? = some pool' ∧
    pool'.counter = counter ∧ ∀ h ∈ tree.top, pool'.Agrees tree roots h
  /-- A root with another block than its own is that of a shared parameter. -/
  roots : ∀ r, roots[r]? = own[r]? ∨ ∃ h ∈ tree.top, ∃ p name entry q pool',
    tree.node? h = some p ∧ p.root = r ∧ p.flags &&& sharedFlag ≠ 0 ∧ p.decl.name = some name ∧
    pool = some q ∧ host'.pools[q]? = some pool' ∧ pool'.find? name = some entry ∧
    entry.shapes = p.node.shapes ∧ good entry.shapes entry.block ∧ roots[r]? = some entry.block

variable {host : Host} {tree : Tree} {pool : Option Nat} {counter : Nat}
  {good : List NodeShape → Nat → Prop} {own : Array Nat}

lemma bindsPool_bindPool
    (hinj : ∀ i ∈ tree.top, ∀ j ∈ tree.top, tree.root? i = tree.root? j → i = j)
    (hlt : ∀ h ∈ tree.top, ∀ p, tree.node? h = some p → p.root < own.size)
    (hown : ∀ h ∈ tree.top, ∀ p, tree.node? h = some p → ∀ id, own[p.root]? = some id →
      good p.node.shapes id)
    (hpool : ∀ p, pool = some p → ∃ pool', host.pools[p]? = some pool' ∧ pool'.counter = counter ∧
      ∀ entry ∈ pool'.entries, good entry.shapes entry.block) :
    host.BindsPool tree pool counter good own (host.bindPool tree pool own).1
      (host.bindPool tree pool own).2 := by
  cases pool with
  | none =>
    exact ⟨rfl, rfl, rfl, rfl, fun _ h => .inl h, fun _ pool h => ⟨pool, h, .refl pool⟩,
      fun _ h => (by cases h), fun _ => .inl rfl⟩
  | some p =>
    obtain ⟨pool, hlookup, hcounter, hgood⟩ := hpool p rfl
    have hbinds := Pool.binds_bind hinj hlt hgood hown
    have hbound : host.bindPool tree (some p) own = ((Pool.bind tree tree.top pool own).2,
        { host with pools :=
            host.pools.setIfInBounds p (Pool.bind tree tree.top pool own).1 }) := by
      simp [bindPool, hlookup]
    rw [hbound]
    have hp : p < host.pools.size := (Array.getElem?_eq_some_iff.1 hlookup).1
    have hself : (host.pools.setIfInBounds p (Pool.bind tree tree.top pool own).1)[p]? =
        some (Pool.bind tree tree.top pool own).1 :=
      Array.getElem?_setIfInBounds_self_of_lt hp
    refine ⟨rfl, rfl, rfl, hbinds.size_roots, fun pool' hpool' => ?_, fun q pool' hpool' => ?_,
      fun q hq => ?_, fun r => ?_⟩
    · rcases Array.mem_or_eq_of_mem_setIfInBounds hpool' with h | rfl
      · exact .inl h
      · exact .inr ⟨hbinds.grows.counter.trans hcounter, hbinds.good⟩
    · by_cases hq : p = q
      · subst hq
        obtain rfl := Option.some.inj (hlookup.symm.trans hpool')
        exact ⟨_, hself, hbinds.grows⟩
      · exact ⟨pool', (Array.getElem?_setIfInBounds_ne hq).trans hpool', .refl pool'⟩
    · cases hq
      exact ⟨_, hself, hbinds.grows.counter.trans hcounter, hbinds.agrees⟩
    · refine (hbinds.roots r).imp_right ?_
      rintro ⟨h, hh, q, name, entry, hq, hr, hflags, hname, hentry, hshapes, hblock⟩
      exact ⟨h, hh, q, name, entry, p, _, hq, hr, hflags, hname, rfl, hself, hentry, hshapes,
        hbinds.good entry (Pool.mem_of_find? hentry), hblock⟩

/-! ### Blocks for roots -/

section

variable (host : Host) (l : Link.Linking)

/-- The host with blocks for the roots of what was linked. -/
def withRoots : Host :=
  { host with
    memory := ({ host.memory with nextObject := l.nextObject }.allocate l.tree.initial).2 }

/-- The blocks for the roots of what was linked. -/
def ownRoots : Array Nat :=
  ({ host.memory with nextObject := l.nextObject }.allocate l.tree.initial).1

lemma size_ownRoots : (host.ownRoots l).size = l.tree.initial.size := Memory.size_fst_allocate ..

lemma eq_of_getElem?_ownRoots {r id : Nat} (h : (host.ownRoots l)[r]? = some id) :
    r < l.tree.initial.size ∧ id = host.memory.blocks.size + r :=
  Memory.eq_of_getElem?_fst_allocate _ _ h

lemma size_blocks_withRoots : (host.withRoots l).memory.blocks.size =
    host.memory.blocks.size + l.tree.initial.size :=
  Memory.size_blocks_allocate ..

lemma block_withRoots_of_lt {id : Nat} (h : id < host.memory.blocks.size) :
    (host.withRoots l).memory.block id = host.memory.block id :=
  Memory.block_allocate_of_lt _ _ h

lemma version_block_withRoots {id : Nat} (h : host.memory.blocks.size ≤ id) :
    ((host.withRoots l).memory.block id).version = 0 :=
  Memory.version_block_allocate _ _ h

lemma toContents_block_withRoots {r : Nat} {c : Contents} (h : l.tree.initial[r]? = some c) :
    ((host.withRoots l).memory.block (host.memory.blocks.size + r)).toContents = c :=
  Memory.toContents_block_allocate _ _ h

end

lemma linkImage_eq_ok {image : Image} {skip : List String} {l : Link.Linking}
    (h : Link.link image skip host.memory.nextObject = .ok l) :
    host.linkImage image skip pool counter = .ok ({
        image, skip, counter, pool
        tree := l.tree
        techniques := l.techniques
        roots := ((host.withRoots l).bindPool l.tree pool (host.ownRoots l)).1 },
      ((host.withRoots l).bindPool l.tree pool (host.ownRoots l)).2) := by
  rw [linkImage, h]
  rfl

lemma exists_of_linkImage_eq_ok {image : Image} {skip : List String} {linked : LinkedEffect}
    {host' : Host} (h : host.linkImage image skip pool counter = .ok (linked, host')) :
    ∃ l, Link.link image skip host.memory.nextObject = .ok l ∧
      linked = {
        image, skip, counter, pool
        tree := l.tree
        techniques := l.techniques
        roots := ((host.withRoots l).bindPool l.tree pool (host.ownRoots l)).1 } ∧
      host' = ((host.withRoots l).bindPool l.tree pool (host.ownRoots l)).2 := by
  obtain ⟨l, hlink, h⟩ := exists_of_bind_eq_ok h
  obtain ⟨rfl, rfl⟩ := Prod.mk.inj (Except.ok.inj h)
  exact ⟨l, hlink, rfl, rfl⟩

/-- What was linked binds its own blocks to a pool if these, and those the pool has, are good. -/
lemma bindsPool_withRoots {image : Image} {skip : List String} {nextObject : Nat}
    {l : Link.Linking} (hlink : Link.link image skip nextObject = .ok l)
    (hown : ∀ h ∈ l.tree.top, ∀ p, l.tree.node? h = some p → p.root < l.tree.initial.size →
      good p.node.shapes (host.memory.blocks.size + p.root))
    (hpool : ∀ p, pool = some p → ∃ pool', host.pools[p]? = some pool' ∧ pool'.counter = counter)
    (hgood : ∀ pool' ∈ host.pools, pool'.counter = counter → ∀ entry ∈ pool'.entries,
      good entry.shapes entry.block) :
    (host.withRoots l).BindsPool l.tree pool counter good (host.ownRoots l)
      ((host.withRoots l).bindPool l.tree pool (host.ownRoots l)).1
      ((host.withRoots l).bindPool l.tree pool (host.ownRoots l)).2 := by
  have hlaid := (Link.attaches_link hlink).skeleton.laid (Link.laid_start image)
  refine bindsPool_bindPool hlaid.top (fun h hh p hp => ?_) (fun h hh p hp id hid => ?_)
    fun p hp => ?_
  · rw [size_ownRoots]
    exact hlaid.root_lt h p.root (Tree.root?_of_node? hp)
  · obtain ⟨hr, rfl⟩ := host.eq_of_getElem?_ownRoots l hid
    exact hown h hh p hp hr
  · obtain ⟨pool', hlookup, hcounter⟩ := hpool p hp
    exact ⟨pool', hlookup, hcounter, hgood pool' (Array.mem_of_getElem? hlookup) hcounter⟩

/-! ### Linking on a host -/

/-- The root of a top-level parameter holds no value of a state. -/
lemma not_isValueRoot_of_mem_top {e : LinkedEffect} (hlaid : Link.Laid e.tree e.techniques)
    {h : Handle} (hh : h ∈ e.tree.top) {p : Parameter} (hp : e.tree.node? h = some p) :
    ¬e.IsValueRoot p.root := by
  rintro ⟨s, hs, hroot⟩
  refine hlaid.apart h (.top hh) s hs ?_
  rw [hroot, Tree.root?_of_node? hp]

lemma exists_use (use : Nat → BlockUse) (n i : Nat) (e : LinkedEffect) :
    ∃ use' : Nat → BlockUse, (∀ id < n, use' id = use id) ∧ ∀ r, e.Uses i r (use' (n + r)) := by
  classical
  refine ⟨fun id => if id < n then use id else
    ⟨e.counter, if e.IsValueRoot (id - n) then some (i, id - n) else none⟩,
    fun id hid => if_pos hid, fun r => ?_⟩
  have hr : n + r - n = r := Nat.add_sub_cancel_left n r
  simp only [hr, Nat.not_lt.2 (Nat.le_add_right n r), if_false]
  exact ⟨rfl, fun h => if_pos h, fun h => if_neg h⟩

/-- What linking an image on a host comes to. -/
structure Links (host : Host) (use : Nat → BlockUse) (i : Nat) (linked : LinkedEffect)
    (host' : Host) (use' : Nat → BlockUse) : Prop where
  layout : host'.Layout use'
  grows : Grows use use' host host'
  fits : (Effect.ofLinked linked).Fits host' use' i
  block_eq : ∀ id < host.memory.blocks.size, host'.memory.block id = host.memory.block id
  counter_eq : ∀ k, host'.memory.counter k = host.memory.counter k
  effects : host'.effects = host.effects
  devices : host'.devices = host.devices
  /-- Only shared blocks were in use before. -/
  roots : ∀ r b, linked.roots[r]? = some b → host.memory.blocks.size ≤ b ∨
    ∃ h ∈ linked.tree.top, ∃ p name entry q pool', linked.tree.node? h = some p ∧ p.root = r ∧
      p.flags &&& sharedFlag ≠ 0 ∧ p.decl.name = some name ∧ linked.pool = some q ∧
      host'.pools[q]? = some pool' ∧ pool'.find? name = some entry ∧
      entry.shapes = p.node.shapes ∧ b = entry.block

/-- A block that parameters of effects with a counter may share. -/
def IsShareable (use : Nat → BlockUse) (size counter : Nat) (_ : List NodeShape) (id : Nat) :
    Prop :=
  id < size ∧ use id = ⟨counter, none⟩

section

variable {l : Link.Linking} {use use' : Nat → BlockUse} {roots : Array Nat} {host' : Host}
  (huse : ∀ id < host.memory.blocks.size, use' id = use id)
  (hb : (host.withRoots l).BindsPool l.tree pool counter
    (IsShareable use' (host.memory.blocks.size + l.tree.initial.size) counter) (host.ownRoots l)
    roots host')
include huse hb

lemma grows_of_bindsPool : Grows use use' host host' where
  size_blocks := by
    rw [hb.memory, size_blocks_withRoots]
    exact Nat.le_add_right ..
  size_counters := by
    rw [hb.memory]
    exact Nat.le_refl _
  counter_le k := by
    rw [hb.memory]
    exact Nat.le_refl _
  use_eq := huse
  pools := hb.grows

lemma layout_of_bindsPool (hlayout : host.Layout use) (hc : counter < host.memory.counters.size) :
    host'.Layout use' where
  versions id := by
    rw [hb.memory]
    show _ ≤ host.memory.counter (use' id).counter
    by_cases hid : id < host.memory.blocks.size
    · rw [block_withRoots_of_lt host l hid, huse id hid]
      exact hlayout.versions id
    · rw [version_block_withRoots host l (Nat.le_of_not_lt hid)]
      exact Nat.zero_le _
  pools pool' hpool' := by
    rcases hb.pools pool' hpool' with hold | ⟨hcounter, hshareable⟩
    · exact hlayout.pools_of_grows (grows_of_bindsPool huse hb) pool' hold
    · rw [hb.memory, size_blocks_withRoots, hcounter]
      exact ⟨hc, hshareable⟩
  effects i effect heffect := by
    rw [hb.effects] at heffect
    exact (hlayout.effects i effect heffect).grows (grows_of_bindsPool huse hb)
  devices d := by
    rw [Host.device, hb.devices]
    exact hlayout.devices d

end

/-- What holds a root of a linked effect is its own block or a shared one. -/
lemma fits_of_bindsPool {image : Image} {skip : List String} {l : Link.Linking}
    {use' : Nat → BlockUse} {roots : Array Nat} {host' : Host} {i : Nat}
    (hlink : Link.link image skip host.memory.nextObject = .ok l)
    (hb : (host.withRoots l).BindsPool l.tree pool counter
      (IsShareable use' (host.memory.blocks.size + l.tree.initial.size) counter) (host.ownRoots l)
      roots host')
    (hc : counter < host.memory.counters.size)
    (hfresh : ∀ r, LinkedEffect.Uses
      { image, skip, tree := l.tree, techniques := l.techniques, roots, counter, pool } i r
      (use' (host.memory.blocks.size + r))) :
    (Effect.ofLinked
      { image, skip, tree := l.tree, techniques := l.techniques, roots, counter, pool }).Fits
      host' use' i where
  linked := ⟨_, l, hlink, rfl, rfl⟩
  counter_lt := by
    rw [hb.memory]
    exact hc
  size_roots := hb.size_roots.trans (size_ownRoots host l)
  uses r id hid := by
    rw [hb.memory, size_blocks_withRoots]
    rcases hb.roots r with hsame | ⟨h, hh, p, name, entry, q, pool', hp, rfl, -, -, -, -, -, -,
      hshareable, hblock⟩
    · obtain ⟨hr, rfl⟩ := host.eq_of_getElem?_ownRoots l (hsame ▸ hid)
      exact ⟨by omega, hfresh r⟩
    · obtain rfl : entry.block = id := Option.some.inj (hblock.symm.trans hid)
      refine ⟨hshareable.1, ?_⟩
      rw [hshareable.2]
      have hlaid := (Link.attaches_link hlink).skeleton.laid (Link.laid_start image)
      exact ⟨rfl, fun hvalue => absurd hvalue (not_isValueRoot_of_mem_top hlaid hh hp),
        fun _ => rfl⟩
  shape := by simp [Effect.ofLinked]
  stamps := by simp [Effect.ofLinked]
  pool := hb.agrees

lemma links_linkImage {use : Nat → BlockUse} (hlayout : host.Layout use) {image : Image}
    {skip : List String} {linked : LinkedEffect} {host' : Host}
    (hc : counter < host.memory.counters.size)
    (hpool : ∀ p, pool = some p → ∃ pool', host.pools[p]? = some pool' ∧ pool'.counter = counter)
    (h : host.linkImage image skip pool counter = .ok (linked, host')) (i : Nat) :
    ∃ use', host.Links use i linked host' use' ∧ linked.image = image ∧ linked.skip = skip ∧
      linked.pool = pool ∧ linked.counter = counter := by
  obtain ⟨l, hlink, rfl, rfl⟩ := exists_of_linkImage_eq_ok h
  have hlaid := (Link.attaches_link hlink).skeleton.laid (Link.laid_start image)
  let e : LinkedEffect := {
    image, skip, counter, pool
    tree := l.tree
    techniques := l.techniques
    roots := ((host.withRoots l).bindPool l.tree pool (host.ownRoots l)).1 }
  obtain ⟨use', huse, hfresh⟩ := exists_use use host.memory.blocks.size i e
  let good := IsShareable use' (host.memory.blocks.size + l.tree.initial.size) counter
  have hown : ∀ h ∈ l.tree.top, ∀ p, l.tree.node? h = some p → p.root < l.tree.initial.size →
      good p.node.shapes (host.memory.blocks.size + p.root) := by
    intro h hh p hp hr
    have huses := hfresh p.root
    have hshared := huses.shared (not_isValueRoot_of_mem_top (e := e) hlaid hh hp)
    refine ⟨by omega, ?_⟩
    rw [show counter = e.counter from rfl, ← huses.counter, ← hshared]
  have hb := bindsPool_withRoots hlink hown hpool fun pool' hpool' hcounter entry hentry => by
    obtain ⟨hlt, huse'⟩ := (hlayout.pools pool' hpool').2 entry hentry
    exact ⟨by omega, by rw [huse _ hlt, huse', hcounter]⟩
  refine ⟨use', ?_, rfl, rfl, rfl, rfl⟩
  exact {
    layout := layout_of_bindsPool huse hb hlayout hc
    grows := grows_of_bindsPool huse hb
    fits := fits_of_bindsPool hlink hb hc hfresh
    block_eq := fun id hid => by
      rw [hb.memory]
      exact block_withRoots_of_lt host l hid
    counter_eq := fun k => by
      rw [hb.memory]
      rfl
    effects := hb.effects
    devices := hb.devices
    roots := fun r b hb' => by
      rcases hb.roots r with hsame | ⟨h, hh, p, name, entry, q, pool', hp, hr, hflags, hname, hq,
        hlookup, hentry, hshapes, -, hblock⟩
      · obtain ⟨-, rfl⟩ := host.eq_of_getElem?_ownRoots l (hsame ▸ hb')
        exact .inl (Nat.le_add_right ..)
      · exact .inr ⟨h, hh, p, name, entry, q, pool', hp, hr, hflags, hname, hq, hlookup, hentry,
          hshapes, Option.some.inj (hb'.symm.trans hblock)⟩ }

end Host

end ShaderEffect
