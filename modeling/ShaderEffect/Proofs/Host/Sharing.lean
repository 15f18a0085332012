import ShaderEffect.Proofs.Host.Effects
import ShaderEffect.Proofs.Link.Trees

/-!
# Who shares a block

Every block of a host belongs to one root of one effect, or to one entry of a pool (`Host.Owned`).
Parameters that are bound to an entry have its block (`Host.Shares`), and nothing else has a block
in common.
-/

namespace ShaderEffect

/-- What a block belongs to: a root of an effect, or the entry of a name in a pool. -/
inductive Owner where
  | root (i r : Nat)
  | entry (q : Nat) (name : String)

namespace Host

/-- The entry of a name in a pool. -/
def entryOf? (host : Host) (q : Nat) (name : String) : Option PoolEntry :=
  host.pools[q]?.bind (·.find? name)

/-- A top-level parameter is shared, and has the shapes of the entry of its name. -/
structure Shares (host : Host) (e : LinkedEffect) (h : Handle) (q : Nat) (name : String) :
    Prop where
  top : h ∈ e.tree.top
  shares : e.tree.shares name h = true
  pool : e.pool = some q
  shapes : ∃ p entry, e.tree.node? h = some p ∧ host.entryOf? q name = some entry ∧
    entry.shapes = p.node.shapes

/-- A root is that of a parameter that is shared like this. -/
def SharesRoot (host : Host) (e : LinkedEffect) (r q : Nat) (name : String) : Prop :=
  ∃ h, host.Shares e h q name ∧ e.tree.root? h = some r

/-- The blocks of an effect are those of its roots, or of entries that these share. -/
def OwnedBy (host : Host) (owner : Nat → Owner) (i : Nat) (e : LinkedEffect) : Prop :=
  ∀ r b, e.roots[r]? = some b →
    owner b = .root i r ∨ ∃ q name, owner b = .entry q name ∧ host.SharesRoot e r q name

/-- Every block belongs to one root of one effect, or to one entry of a pool. -/
structure Owned (host : Host) (owner : Nat → Owner) : Prop where
  distinct : ∀ pool ∈ host.pools, pool.Distinct
  entries : ∀ q name entry, host.entryOf? q name = some entry → owner entry.block = .entry q name
  effects : ∀ (i : Nat) (effect : Effect), host.effects[i]? = some (some effect) →
    host.OwnedBy owner i effect.linked

variable {host host' : Host} {owner : Nat → Owner}

/-- What a parameter is that shares an entry. -/
lemma Shares.of_node {e : LinkedEffect} {h : Handle} {q : Nat} {name : String}
    (hshares : host.Shares e h q name) {p : Parameter} (hp : e.tree.node? h = some p) :
    p.flags &&& sharedFlag ≠ 0 ∧ p.decl.name = some name ∧
      ∃ entry, host.entryOf? q name = some entry ∧ entry.shapes = p.node.shapes := by
  obtain ⟨u, hu, hflags, hname⟩ := Tree.shares_eq_true.1 hshares.shares
  obtain ⟨v, entry, hv, hentry, hshapes⟩ := hshares.shapes
  obtain rfl : u = p := Option.some.inj (hu.symm.trans hp)
  obtain rfl : v = u := Option.some.inj (hv.symm.trans hp)
  exact ⟨hflags, hname, entry, hentry, hshapes⟩

/-- A root shares one entry at most, if different parameters have different roots. -/
lemma SharesRoot.unique {e : LinkedEffect}
    (hinj : ∀ t ∈ e.tree.top, ∀ t' ∈ e.tree.top, e.tree.root? t = e.tree.root? t' → t = t')
    {r q q' : Nat} {name name' : String} (h : host.SharesRoot e r q name)
    (h' : host.SharesRoot e r q' name') : q = q' ∧ name = name' := by
  obtain ⟨t, hshares, hroot⟩ := h
  obtain ⟨t', hshares', hroot'⟩ := h'
  obtain rfl := hinj t hshares.top t' hshares'.top (hroot.trans hroot'.symm)
  obtain ⟨p, -, hp, -⟩ := hshares.shapes
  obtain ⟨-, hname, -⟩ := hshares.of_node hp
  obtain ⟨-, hname', -⟩ := hshares'.of_node hp
  exact ⟨Option.some.inj (hshares.pool.symm.trans hshares'.pool),
    Option.some.inj (hname.symm.trans hname')⟩

lemma entryOf?_eq_some {q : Nat} {name : String} {entry : PoolEntry} :
    host.entryOf? q name = some entry ↔
      ∃ pool, host.pools[q]? = some pool ∧ pool.find? name = some entry :=
  Option.bind_eq_some_iff

/-- Hosts whose pools grow keep their entries. -/
lemma Grows.entryOf? {use use' : Nat → BlockUse} (hgrows : Grows use use' host host') {q : Nat}
    {name : String} {entry : PoolEntry} (h : host.entryOf? q name = some entry) :
    host'.entryOf? q name = some entry := by
  obtain ⟨pool, hpool, hentry⟩ := entryOf?_eq_some.1 h
  obtain ⟨pool', hpool', hpoolGrows⟩ := hgrows.pools q pool hpool
  exact entryOf?_eq_some.2 ⟨pool', hpool', hpoolGrows.find? _ _ hentry⟩

section

variable (hentries : ∀ q name entry, host.entryOf? q name = some entry →
  host'.entryOf? q name = some entry)
include hentries

lemma Shares.mono {e : LinkedEffect} {h : Handle} {q : Nat} {name : String}
    (hshares : host.Shares e h q name) : host'.Shares e h q name := by
  obtain ⟨htop, hshares, hpool, p, entry, hp, hentry, hshapes⟩ := hshares
  exact ⟨htop, hshares, hpool, p, entry, hp, hentries q name entry hentry, hshapes⟩

lemma OwnedBy.mono {i : Nat} {e : LinkedEffect} (h : host.OwnedBy owner i e) :
    host'.OwnedBy owner i e := fun r b hb =>
  (h r b hb).imp_right fun ⟨q, name, howner, t, hshares, hroot⟩ =>
    ⟨q, name, howner, t, hshares.mono hentries, hroot⟩

end

/-! ### What has a block in common -/

/-- A parameter that shares an entry has its block. -/
lemma Shares.root_eq {use : Nat → BlockUse} {i : Nat} {effect : Effect}
    (hfits : effect.Fits host use i) {h : Handle} {q : Nat} {name : String}
    (hshares : host.Shares effect.linked h q name) : ∃ r entry,
      effect.linked.tree.root? h = some r ∧ host.entryOf? q name = some entry ∧
      effect.linked.roots[r]? = some entry.block := by
  obtain ⟨p, -, hp, -⟩ := hshares.shapes
  obtain ⟨hflags, hname, entry, hentry, hshapes⟩ := hshares.of_node hp
  obtain ⟨pool, hlookup, -, hagrees⟩ := hfits.pool q hshares.pool
  obtain ⟨entry', hentry', hblock⟩ := hagrees h hshares.top p name hp hflags hname
  obtain ⟨pool', hlookup', hentry⟩ := entryOf?_eq_some.1 hentry
  obtain rfl := Option.some.inj (hlookup.symm.trans hlookup')
  obtain rfl := Option.some.inj (hentry'.symm.trans hentry)
  exact ⟨p.root, entry', Tree.root?_of_node? hp, entryOf?_eq_some.2 ⟨pool, hlookup, hentry⟩,
    hblock hshapes⟩

/-- The name of a shared parameter of an effect has an entry. -/
lemma exists_entryOf? {use : Nat → BlockUse} {i : Nat} {effect : Effect}
    (hfits : effect.Fits host use i) {t : Handle} (ht : t ∈ effect.linked.tree.top) {name : String}
    (hshares : effect.linked.tree.shares name t = true) {q : Nat}
    (hq : effect.linked.pool = some q) : ∃ entry, host.entryOf? q name = some entry := by
  obtain ⟨p, hp, hflags, hname⟩ := Tree.shares_eq_true.1 hshares
  obtain ⟨pool, hlookup, -, hagrees⟩ := hfits.pool q hq
  obtain ⟨entry, hentry, -⟩ := hagrees t ht p name hp hflags hname
  exact ⟨entry, entryOf?_eq_some.2 ⟨pool, hlookup, hentry⟩⟩

namespace Owned

variable (h : host.Owned owner)
include h

/-- Two roots with one block are the same root of the same effect, or share an entry. -/
lemma eq_or_shares {i j : Nat} {effect effect' : Effect}
    (hi : host.effects[i]? = some (some effect)) (hj : host.effects[j]? = some (some effect'))
    {r r' b : Nat} (hb : effect.linked.roots[r]? = some b)
    (hb' : effect'.linked.roots[r']? = some b) : i = j ∧ r = r' ∨ ∃ q name,
      host.SharesRoot effect.linked r q name ∧ host.SharesRoot effect'.linked r' q name := by
  rcases h.effects i effect hi r b hb with hroot | ⟨q, name, hentry, hshares⟩ <;>
    rcases h.effects j effect' hj r' b hb' with hroot' | ⟨q', name', hentry', hshares'⟩
  · rw [hroot, Owner.root.injEq] at hroot'
    exact .inl hroot'
  · rw [hroot] at hentry'
    cases hentry'
  · rw [hentry] at hroot'
    cases hroot'
  · rw [hentry, Owner.entry.injEq] at hentry'
    obtain ⟨rfl, rfl⟩ := hentry'
    exact .inr ⟨q, name, hshares, hshares'⟩

/-- A root with the block of an entry shares the entry. -/
lemma shares_of_entry {i : Nat} {effect : Effect} (hi : host.effects[i]? = some (some effect))
    {r q : Nat} {name : String} {entry : PoolEntry} (hentry : host.entryOf? q name = some entry)
    (hb : effect.linked.roots[r]? = some entry.block) :
    host.SharesRoot effect.linked r q name := by
  have howner := h.entries q name entry hentry
  rcases h.effects i effect hi r _ hb with hroot | ⟨q', name', howner', hshares⟩
  · rw [howner] at hroot
    cases hroot
  · rw [howner, Owner.entry.injEq] at howner'
    obtain ⟨rfl, rfl⟩ := howner'
    exact hshares

end Owned

/-! ### Operations that make no effect -/

/-- Hosts with no other entries and no other effects. -/
lemma Owned.congr (h : host.Owned owner) (hdistinct : ∀ pool ∈ host'.pools, pool.Distinct)
    (hentries : ∀ q name, host'.entryOf? q name = host.entryOf? q name)
    (heffects : ∀ (i : Nat) (effect' : Effect), host'.effects[i]? = some (some effect') →
      ∃ effect, host.effects[i]? = some (some effect) ∧ effect'.linked = effect.linked) :
    host'.Owned owner where
  distinct := hdistinct
  entries q name entry hentry := h.entries q name entry (hentries q name ▸ hentry)
  effects i effect' heffect' := by
    obtain ⟨effect, heffect, hlinked⟩ := heffects i effect' heffect'
    rw [hlinked]
    exact (h.effects i effect heffect).mono fun q name entry hentry =>
      (hentries q name).trans hentry

/-- A new pool has no entries. -/
lemma entryOf?_createPool (host : Host) (q : Nat) (name : String) :
    (host.perform .createPool).entryOf? q name = host.entryOf? q name := by
  have hpools : (host.perform .createPool).pools =
      host.pools.push { counter := host.memory.newCounter.1 } := rfl
  rw [entryOf?, entryOf?, hpools, Array.getElem?_push]
  split
  · rename_i hq
    rw [hq, Array.getElem?_eq_none (Nat.le_refl _)]
    rfl
  · rfl

lemma owned_createPool (h : host.Owned owner) : (host.perform .createPool).Owned owner := by
  refine h.congr (fun pool hpool => ?_) (entryOf?_createPool host) fun i effect heffect =>
    ⟨effect, heffect, rfl⟩
  rcases Array.mem_push.1 hpool with hpool | rfl
  · exact h.distinct pool hpool
  · intro entry hentry
    cases hentry

lemma entryOf?_call (host : Host) (i : Nat) (op : Operation) (q : Nat) (name : String) :
    (host.perform (.call i op)).entryOf? q name = host.entryOf? q name := by
  rw [entryOf?, pools_perform_call]
  rfl

lemma owned_call {use : Nat → BlockUse} (hlayout : host.Layout use) (h : host.Owned owner) (i : Nat)
    (op : Operation) : (host.perform (.call i op)).Owned owner := by
  have hpools := pools_perform_call host i op
  refine h.congr (hpools ▸ h.distinct) (entryOf?_call host i op) fun j effect' heffect' => ?_
  cases hs : host.state? i with
  | none => exact ⟨effect', perform_call_of_none hs op ▸ heffect', rfl⟩
  | some s =>
    have hlaid : host.LaidOut := ⟨use, hlayout⟩
    rcases effects_perform_call hs heffect' with ⟨rfl, rfl⟩ | ⟨-, heffect'⟩
    · exact ⟨s.effect, (state?_eq_some.1 hs).1,
        (EffectState.leaves_perform (hlaid.proper hs) (hlaid.counter_lt hs) host.device op).linked⟩
    · exact ⟨effect', heffect', rfl⟩

/-! ### Making effects -/

/-- What a pool of a host gains when the parameters of a tree are bound to a pool. -/
lemma provides_bindPool {tree : Tree} {pool : Option Nat} {own : Array Nat}
    (hinj : ∀ i ∈ tree.top, ∀ j ∈ tree.top, tree.root? i = tree.root? j → i = j)
    (hlt : ∀ h ∈ tree.top, ∀ p, tree.node? h = some p → p.root < own.size) {q : Nat}
    {pool' : Pool} (h : (host.bindPool tree pool own).2.pools[q]? = some pool') :
    host.pools[q]? = some pool' ∨ pool = some q ∧ ∃ pool₀, host.pools[q]? = some pool₀ ∧
      Pool.Provides tree tree.top pool₀ own pool' := by
  rw [bindPool] at h
  split at h
  case h_1 => exact .inl h
  case h_2 q' pool₀ hbind =>
    obtain ⟨q'', rfl, hmap⟩ := Option.bind_eq_some_iff.1 hbind
    obtain ⟨pool₁, hlookup, heq⟩ := Option.map_eq_some_iff.1 hmap
    obtain ⟨rfl, rfl⟩ := Prod.mk.inj heq
    by_cases hq : q'' = q
    · subst hq
      have hlt' : q'' < host.pools.size := (Array.getElem?_eq_some_iff.1 hlookup).1
      rw [Array.getElem?_setIfInBounds_self_of_lt hlt'] at h
      obtain rfl := Option.some.inj h
      exact .inr ⟨rfl, pool₁, hlookup, Pool.provides_bind hinj hlt⟩
    · rw [Array.getElem?_setIfInBounds_ne hq] at h
      exact .inl h

section

variable {image : Image} {skip : List String} {pool : Option Nat} {l : Link.Linking}
  (hlink : Link.link image skip host.memory.nextObject = .ok l)
include hlink

/-- What the pools of a host gain when an image is linked: an entry for a name is that of the first
shared parameter with the name, and has its own block. -/
lemma pools_linkImage {q : Nat} {pool' : Pool}
    (hpool : ((host.withRoots l).bindPool l.tree pool (host.ownRoots l)).2.pools[q]? = some pool') :
    host.pools[q]? = some pool' ∨ pool = some q ∧ ∃ pool₀, host.pools[q]? = some pool₀ ∧
      Pool.Provides l.tree l.tree.top pool₀ (host.ownRoots l) pool' := by
  have hlaid := (Link.attaches_link hlink).skeleton.laid (Link.laid_start image)
  show (host.withRoots l).pools[q]? = _ ∨ pool = some q ∧ ∃ pool₀,
    (host.withRoots l).pools[q]? = some pool₀ ∧ _
  refine provides_bindPool hlaid.top (fun h hh p hp => ?_) hpool
  rw [size_ownRoots]
  exact hlaid.root_lt h p.root (Tree.root?_of_node? hp)

end

/-- New blocks belong to new entries and else to their own roots. -/
lemma exists_owner (owner : Nat → Owner) (n i : Nat) {added : Nat → Nat → String → Prop}
    (hunique : ∀ id q name q' name', added id q name → added id q' name' →
      q = q' ∧ name = name') :
    ∃ owner' : Nat → Owner, (∀ id < n, owner' id = owner id) ∧
      (∀ id q name, n ≤ id → added id q name → owner' id = .entry q name) ∧
      ∀ r, (∀ q name, ¬added (n + r) q name) → owner' (n + r) = .root i r := by
  classical
  refine ⟨fun id => if id < n then owner id else
    if h : ∃ entry : Nat × String, added id entry.1 entry.2 then .entry h.choose.1 h.choose.2
    else .root i (id - n), fun id hid => if_pos hid, fun id q name hid hadded => ?_,
    fun r hnone => ?_⟩
  · have h : ∃ entry : Nat × String, added id entry.1 entry.2 := ⟨(q, name), hadded⟩
    obtain ⟨hq, hname⟩ := hunique id _ _ q name h.choose_spec hadded
    simp only [Nat.not_lt.2 hid, if_false, h, dif_pos, hq, hname]
  · have h : ¬∃ entry : Nat × String, added (n + r) entry.1 entry.2 :=
      fun ⟨entry, h⟩ => hnone entry.1 entry.2 h
    simp only [Nat.not_lt.2 (Nat.le_add_right n r), if_false, h, dif_neg, not_false_eq_true,
      Nat.add_sub_cancel_left]

/-- What linking an image does to the entries of pools, and where what is linked has its roots. -/
structure Enters (host : Host) (e : LinkedEffect) (host' : Host) : Prop where
  effects : host'.effects = host.effects
  distinct : ∀ pool ∈ host'.pools, pool.Distinct
  old : ∀ q name entry, host.entryOf? q name = some entry →
    entry.block < host.memory.blocks.size ∧ host'.entryOf? q name = some entry
  /-- A new entry is that of the first shared parameter with the name, and has its own block. -/
  new : ∀ q name entry, host'.entryOf? q name = some entry →
    host.entryOf? q name = some entry ∨ host.entryOf? q name = none ∧ e.pool = some q ∧ ∃ t p,
      e.tree.top.find? (e.tree.shares name) = some t ∧ e.tree.node? t = some p ∧
      entry.shapes = p.node.shapes ∧ entry.block = host.memory.blocks.size + p.root
  roots : ∀ r b, e.roots[r]? = some b → b = host.memory.blocks.size + r ∨
    ∃ q name entry, host'.entryOf? q name = some entry ∧ entry.block = b ∧
      host'.SharesRoot e r q name

lemma enters_linkImage {use : Nat → BlockUse} (hlayout : host.Layout use)
    (hdistinct : ∀ pool ∈ host.pools, pool.Distinct) {image : Image} {skip : List String}
    {pool : Option Nat} {counter : Nat} {linked : LinkedEffect}
    (hpool : ∀ p, pool = some p → ∃ pool', host.pools[p]? = some pool' ∧ pool'.counter = counter)
    (hlinked : host.linkImage image skip pool counter = .ok (linked, host')) :
    host.Enters linked host' := by
  obtain ⟨l, hlink, rfl, rfl⟩ := exists_of_linkImage_eq_ok hlinked
  have hb : (host.withRoots l).BindsPool l.tree pool counter (fun _ _ => True) (host.ownRoots l)
      ((host.withRoots l).bindPool l.tree pool (host.ownRoots l)).1
      ((host.withRoots l).bindPool l.tree pool (host.ownRoots l)).2 :=
    bindsPool_withRoots hlink (fun _ _ _ _ _ => trivial) hpool fun _ _ _ _ _ => trivial
  refine ⟨hb.effects, fun pool' hpool' => ?_, fun q name entry hentry => ?_,
    fun q name entry hentry => ?_, fun r b hr => ?_⟩
  · obtain ⟨q, hq⟩ := Array.mem_iff_getElem?.1 hpool'
    rcases pools_linkImage hlink hq with hq | ⟨-, pool₀, hpool₀, hprovides⟩
    · exact hdistinct pool' (Array.mem_of_getElem? hq)
    · exact hprovides.distinct (hdistinct pool₀ (Array.mem_of_getElem? hpool₀))
  · obtain ⟨pool', hpool', hfind⟩ := entryOf?_eq_some.1 hentry
    obtain ⟨pool'', hpool'', hgrows⟩ := hb.grows q pool' hpool'
    exact ⟨((hlayout.pools pool' (Array.mem_of_getElem? hpool')).2 _ (Pool.mem_of_find? hfind)).1,
      entryOf?_eq_some.2 ⟨pool'', hpool'', hgrows.find? _ _ hfind⟩⟩
  · obtain ⟨pool', hpool', hfind⟩ := entryOf?_eq_some.1 hentry
    rcases pools_linkImage hlink hpool' with hsame | ⟨rfl, pool₀, hpool₀, hprovides⟩
    · exact .inl (entryOf?_eq_some.2 ⟨pool', hsame, hfind⟩)
    obtain rfl : entry.name = name := by simpa using List.find?_some hfind
    rcases hprovides.entries entry (Pool.mem_of_find? hfind) with hold | ⟨hnone, t, p, hfirst, hp,
      hshapes, hblock⟩
    · exact .inl (entryOf?_eq_some.2
        ⟨pool₀, hpool₀, hdistinct pool₀ (Array.mem_of_getElem? hpool₀) entry hold⟩)
    · refine .inr ⟨by rw [entryOf?, hpool₀]; exact hnone, rfl, t, p, hfirst, hp, hshapes, ?_⟩
      exact (host.eq_of_getElem?_ownRoots l hblock).2
  · rcases hb.roots r with hsame | ⟨t, ht, p, name, entry, q, pool', hp, rfl, hflags, hname, hq,
      hlookup, hfind, hshapes, -, hblock⟩
    · exact .inl (host.eq_of_getElem?_ownRoots l (hsame ▸ hr)).2
    · have hentry := entryOf?_eq_some.2 ⟨pool', hlookup, hfind⟩
      exact .inr ⟨q, name, entry, hentry, Option.some.inj (hblock.symm.trans hr), t,
        ⟨ht, Tree.shares_eq_true.2 ⟨p, hp, hflags, hname⟩, hq, p, entry, hp, hentry, hshapes⟩,
        Tree.root?_of_node? hp⟩

namespace Enters

variable {e : LinkedEffect} (h : host.Enters e host')
include h

/-- An entry with a new block is shared by the root that the block is for. -/
lemma exists_sharesRoot {q : Nat} {name : String} {entry : PoolEntry}
    (hentry : host'.entryOf? q name = some entry) (hle : host.memory.blocks.size ≤ entry.block) :
    ∃ r, entry.block = host.memory.blocks.size + r ∧ host'.SharesRoot e r q name := by
  rcases h.new q name entry hentry with hold | ⟨-, hq, t, p, hfirst, hp, hshapes, hblock⟩
  · exact absurd (h.old q name entry hold).1 (Nat.not_lt.2 hle)
  · exact ⟨p.root, hblock, t, ⟨List.mem_of_find?_eq_some hfirst, List.find?_some hfirst, hq, p,
      entry, hp, hentry, hshapes⟩, Tree.root?_of_node? hp⟩

/-- Whatever belonged to an owner still does, and new blocks belong to new entries or roots. -/
lemma exists_owned {use : Nat → BlockUse} (hlayout : host.Layout use) (howned : host.Owned owner)
    (hinj : ∀ t ∈ e.tree.top, ∀ t' ∈ e.tree.top, e.tree.root? t = e.tree.root? t' → t = t')
    (i : Nat) : ∃ owner', host'.Owned owner' ∧ host'.OwnedBy owner' i e := by
  let n := host.memory.blocks.size
  let added := fun id q name => n ≤ id ∧ ∃ entry, host'.entryOf? q name = some entry ∧
    entry.block = id
  have hunique : ∀ id q name q' name', added id q name → added id q' name' →
      q = q' ∧ name = name' := by
    rintro id q name q' name' ⟨hid, entry, hentry, rfl⟩ ⟨hid', entry', hentry', hblock⟩
    obtain ⟨r, hr, hshares⟩ := h.exists_sharesRoot hentry hid
    obtain ⟨r', hr', hshares'⟩ := h.exists_sharesRoot hentry' (hblock ▸ hid)
    obtain rfl : r = r' := by omega
    exact hshares.unique hinj hshares'
  obtain ⟨owner', howner, hadded, hown⟩ := exists_owner owner n i hunique
  have hentries : ∀ q name entry, host'.entryOf? q name = some entry →
      owner' entry.block = .entry q name := fun q name entry hentry => by
    by_cases hlt : entry.block < n
    · rw [howner _ hlt]
      rcases h.new q name entry hentry with hentry | ⟨-, -, t, p, -, -, -, hroot⟩
      · exact howned.entries q name entry hentry
      · omega
    · exact hadded _ q name (Nat.le_of_not_lt hlt) ⟨Nat.le_of_not_lt hlt, entry, hentry, rfl⟩
  refine ⟨owner', ⟨h.distinct, hentries, fun j effect heffect r b hr => ?_⟩, fun r b hr => ?_⟩
  · rw [h.effects] at heffect
    rw [howner b ((hlayout.effects j effect heffect).uses r b hr).1]
    exact (howned.effects j effect heffect).mono (fun q name entry hentry =>
      (h.old q name entry hentry).2) r b hr
  · rcases h.roots r b hr with rfl | ⟨q, name, entry, hentry, rfl, hshares⟩
    · by_cases hentry : ∃ q name, added (n + r) q name
      · obtain ⟨q, name, hle, entry, hentry, hblock⟩ := hentry
        obtain ⟨r', hr', hshares⟩ := h.exists_sharesRoot hentry (hblock ▸ hle)
        obtain rfl : r' = r := by omega
        exact .inr ⟨q, name, hblock ▸ hentries q name entry hentry, hshares⟩
      · exact .inl (hown r fun q name hname => hentry ⟨q, name, hname⟩)
    · exact .inr ⟨q, name, hentries q name entry hentry, hshares⟩

end Enters

/-- What an image is linked to gets blocks of its own, except for what it shares. -/
lemma owned_linkImage {use : Nat → BlockUse} (hlayout : host.Layout use) (h : host.Owned owner)
    {image : Image} {skip : List String} {pool : Option Nat} {counter : Nat}
    {linked : LinkedEffect}
    (hpool : ∀ p, pool = some p → ∃ pool', host.pools[p]? = some pool' ∧ pool'.counter = counter)
    (hlinked : host.linkImage image skip pool counter = .ok (linked, host')) (i : Nat) :
    ∃ owner', host'.Owned owner' ∧ host'.OwnedBy owner' i linked := by
  refine (enters_linkImage hlayout h.distinct hpool hlinked).exists_owned hlayout h ?_ i
  obtain ⟨l, hlink, rfl, -⟩ := exists_of_linkImage_eq_ok hlinked
  exact ((Link.attaches_link hlink).skeleton.laid (Link.laid_start image)).top

lemma Owned.addEffect (h : host.Owned owner) {effect : Effect}
    (heffect : host.OwnedBy owner host.effects.size effect.linked) :
    (host.addEffect effect).2.Owned owner where
  distinct := h.distinct
  entries := h.entries
  effects i effect' heffect' := by
    have hentries : ∀ q name entry, host.entryOf? q name = some entry →
        (host.addEffect effect).2.entryOf? q name = some entry := fun _ _ _ h => h
    rcases effects_addEffect host effect heffect' with ⟨rfl, rfl⟩ | heffect'
    · exact heffect.mono hentries
    · exact (h.effects i effect' heffect').mono hentries

lemma owned_create {use : Nat → BlockUse} (hlayout : host.Layout use) (h : host.Owned owner)
    (image : Image) (skip : List String) (pool : Option Nat) :
    ∃ owner', (host.perform (.create image skip pool)).Owned owner' := by
  rw [perform]
  cases hcreate : host.create image skip pool with
  | error e => exact ⟨owner, h⟩
  | ok result =>
    obtain ⟨k, host'⟩ := result
    obtain ⟨base, linked, made, hmade, -, rfl⟩ := exists_of_create_eq_ok hlayout hcreate
    obtain ⟨pool', counter, -, hpool', hlink⟩ := hmade.linkImage
    have hbase : base.Owned owner := h.congr (hmade.pools ▸ h.distinct)
      (fun q name => by rw [entryOf?, hmade.pools]; rfl)
      fun j effect heffect => ⟨effect, hmade.effects ▸ heffect, rfl⟩
    obtain ⟨owner', howned, hlinked⟩ :=
      owned_linkImage hmade.layout hbase hpool' hlink made.effects.size
    exact ⟨owner', howned.addEffect hlinked⟩

lemma owned_clone {use : Nat → BlockUse} (hlayout : host.Layout use) (h : host.Owned owner)
    (i : Nat) : ∃ owner', (host.perform (.clone i)).Owned owner' := by
  rw [perform]
  cases hs : host.state? i with
  | none => exact ⟨owner, h⟩
  | some s =>
    have hfits := hlayout.effects i s.effect (state?_eq_some.1 hs).1
    simp only
    cases hclone : host.clone s.effect with
    | error e => exact ⟨owner, h⟩
    | ok result =>
      obtain ⟨⟨linked, made⟩, hlink, hclone⟩ := exists_of_bind_eq_ok hclone
      cases hclone
      obtain ⟨owner', howned, hlinked⟩ := owned_linkImage hlayout h
        (fun p hp => (hfits.pool p hp).imp fun _ h => ⟨h.1, h.2.1⟩) hlink made.effects.size
      -- Copying changes values only.
      let copied : Host := { made with
        memory := copyBlocks s.effect.linked.roots linked.roots made.memory }
      have hentries : ∀ q name entry, made.entryOf? q name = some entry →
          copied.entryOf? q name = some entry := fun _ _ _ h => h
      have hcopied : copied.Owned owner' :=
        howned.congr howned.distinct (fun _ _ => rfl) fun _ effect heffect => ⟨effect, heffect, rfl⟩
      exact ⟨owner', hcopied.addEffect (hlinked.mono hentries)⟩

/-! ### All operations -/

/-- Every operation keeps it that blocks belong to one root or one entry. -/
theorem owned_perform {use : Nat → BlockUse} (hlayout : host.Layout use) (h : host.Owned owner)
    (op : HostOperation) : ∃ owner', (host.perform op).Owned owner' := by
  cases op with
  | createPool => exact ⟨owner, owned_createPool h⟩
  | create image skip pool => exact owned_create hlayout h image skip pool
  | clone i => exact owned_clone hlayout h i
  | drop i =>
    exact ⟨owner, h.congr h.distinct (fun _ _ => rfl) fun j effect heffect =>
      ⟨effect, effects_of_drop heffect, rfl⟩⟩
  | share => exact ⟨owner, h.congr h.distinct (fun _ _ => rfl) fun _ e he => ⟨e, he, rfl⟩⟩
  | send d calls => exact ⟨owner, h.congr h.distinct (fun _ _ => rfl) fun _ e he => ⟨e, he, rfl⟩⟩
  | call i op => exact ⟨owner, owned_call hlayout h i op⟩

/-- In every host that can come about each block belongs to one root or one entry. -/
theorem Reachable.owned (h : host.Reachable) : ∃ owner, host.Owned owner := by
  obtain ⟨ops, rfl⟩ := h
  have hempty : ∃ owner, Owned {} owner := ⟨fun _ => .root 0 0, fun _ h => (by simp at h),
    fun _ _ _ h => (by simp [entryOf?] at h), fun _ _ h => by simp at h⟩
  have hrun : ∀ host : Host, host.LaidOut → (∃ owner, host.Owned owner) →
      ∃ owner, (host.run ops).Owned owner := by
    induction ops with
    | nil => exact fun _ _ h => h
    | cons op rest ih =>
      rintro host ⟨use, hlayout⟩ ⟨owner, howned⟩
      exact ih _ (LaidOut.perform ⟨use, hlayout⟩ op) (owned_perform hlayout howned op)
  exact hrun {} laidOut_empty hempty

end Host

end ShaderEffect
