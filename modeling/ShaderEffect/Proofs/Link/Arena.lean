import ShaderEffect.Proofs.Image.RoundTrip
import ShaderEffect.Proofs.Image.Sound
import ShaderEffect.Proofs.Link.Sizes
import ShaderEffect.Value.Raw

/-!
# How trees mirror images

The nodes of an effect mirror the values of its image, and their words and slots are those of the
leaves, in tree order (`Link.Mirrors`). This is what every accessor relies on; the accessors of
bytes also rely on sizes, which tell whether a value is all numbers.
-/

namespace ShaderEffect

open Growth (slotsFrom)

/-- A value that is exchanged as bytes: all its leaves are numbers, and there is room for four bytes
of each word. -/
def Node.TakesBytes (n : Node) (provided : Nat) : Prop :=
  (∀ m ∈ n.leafNodes, ∃ d ws, m = .words d ws) ∧ 4 * (n.data .words).length ≤ provided

namespace Link

/-- A root mirrors the value it was made from: its words are those of the leaves of the value, and
its slots are for the objects of the leaves, both in tree order. One node stands for all of it. -/
structure MirrorsRoot (im : Image) (l : Linking) (r : Nat) (h : Handle) (p : Parameter) : Prop where
  node? : l.tree.node? h = some p
  root : p.root = r
  head : ∀ h' p', l.tree.node? h' = some p' → p'.root = r → p'.top = h
  contents : l.tree.initial[r]? = some (p.node.contents l.objects)
  waiting : (pendingOf im).toList.filter (·.root = r) = slotsFrom r 0 (p.node.data .objects)

/-- A node mirrors the value it was made from. -/
structure MirrorsNode (im : Image) (l : Linking) (h : Handle) (p : Parameter) : Prop where
  value : ∃ place, im.Contains p.node place
  /-- The members are made from the parts of the value, in order. -/
  members : p.members.map l.tree.value? = p.node.children.map some
  larger : ∀ j ∈ p.members, h.index < j.index
  ascending : p.members.Pairwise (·.index < ·.index)
  parent : ∀ h' p', l.tree.node? h' = some p' → ∀ j ∈ p.members, j ∈ p'.members → h' = h
  /-- The node is under the root that it belongs to. -/
  top : ∃ q, l.tree.node? p.top = some q ∧ q.top = p.top ∧ q.root = p.root ∧
    l.tree.Under p.top h ∧ ∀ h' p', l.tree.node? h' = some p' → p.top ∉ p'.members
  sizes : ∀ k : Storage, (k.slice p).length = (p.node.data k).length
  /-- The node addresses what the leaves of its value keep. -/
  contents : ∃ c, l.tree.initial[p.root]? = some c ∧ p.words.read c.words = p.node.data .words ∧
    p.objects.read c.objects = (p.node.data .objects).map l.objects.get?
  /-- What the members address follows one another, and is all that the node addresses. -/
  parts : p.node.isLeaf = false → ∃ qs : List Parameter, p.members.map l.tree.node? = qs.map some ∧
    ∀ k : Storage, Slice.Follow (k.slice p).start (qs.map k.slice) (k.slice p).stop
  states : p.states.map (fun s => (s.operation, s.index, l.tree.value? s.param)) =
    p.node.states.map fun a => (a.operation, a.index, some a.value)
  /-- The values of states have roots of their own. -/
  apart : ∀ s ∈ p.states, ∃ q, l.tree.node? s.param = some q ∧ q.top = s.param ∧ p.root < q.root
  /-- Nothing is lost when sizes are added. -/
  bytes : p.bytes.toNat = 4 * (p.words.length + p.objects.length + p.node.gaps)

/-- A tree mirrors an image. The values of the states of samplers have different roots, and a node
is exchanged as bytes if its value is. -/
structure Mirrors (im : Image) (l : Linking) : Prop where
  roots : ∀ r < l.tree.initial.size, ∃ h p, MirrorsRoot im l r h p
  nodes : ∀ h p, l.tree.node? h = some p → MirrorsNode im l h p
  states : ((l.tree.nodes.toList.flatMap (·.states)).map fun s => l.tree.root? s.param).Nodup
  raw : ∀ s : EffectState, s.effect.linked.tree = l.tree → ∀ h p, l.tree.node? h = some p →
    ∀ buffer, ((∃ out, s.getValue h buffer = .ok out) ↔ p.node.TakesBytes buffer.length) ∧
      ((∃ s', s.setValue h buffer = .ok s') ↔ p.node.TakesBytes buffer.length)

variable {im : Image} {l : Linking} {r : Nat} {h : Handle} {p : Parameter}

lemma IsLinkingOf.exists_mirrorsRoot (him : im.WellFormed) (hl : IsLinkingOf im l)
    (hr : r < l.tree.initial.size) : ∃ h p, MirrorsRoot im l r h p := by
  obtain ⟨n, i, hraised⟩ := hl.exists_raisedBy him hr
  obtain ⟨q, hq, -, hroot, htop, rfl, -⟩ := hraised.exists_standsAt
  obtain ⟨flags, top, hnests⟩ := (hl.skeleton.nested (nested_start im)).roots r hr
  have hhead := hnests.top_eq _ q (Nat.zero_le _) hq hroot
  exact ⟨⟨i⟩, q, hq, hroot, fun h' p' hp' hr' =>
    (hnests.top_eq h' p' (Nat.zero_le _) hp' hr').trans (hhead.symm.trans htop),
    hraised.contents, hraised.waiting⟩

lemma Belongs.contents {q : Parameter} (hh : Belongs im l h p q) :
    ∃ c, l.tree.initial[p.root]? = some c ∧ p.words.read c.words = p.node.data .words ∧
      p.objects.read c.objects = (p.node.data .objects).map l.objects.get? := by
  have hcuts : ∀ k : Storage, (k.slice p).Cuts 0 (q.node.data k) (p.node.data k) :=
    fun k => hh.start k ▸ hh.part.cuts k
  exact ⟨_, hh.raised.contents, (hcuts .words).read, ((hcuts .objects).map _).read⟩

lemma IsLinkingOf.mirrorsNode (him : im.WellFormed) (hl : IsLinkingOf im l)
    (hp : l.tree.node? h = some p) : MirrorsNode im l h p := by
  have hmade := hl.skeleton.made (made_start im)
  obtain ⟨q, hq⟩ := hl.exists_belongs him hp
  have hnode := hq.part.standsAt.nodeFor
  have hsizes : ∀ k : Storage, (k.slice p).length = (p.node.data k).length := fun k =>
    congrArg Slice.length (hnode.slice k)
  obtain ⟨stop, hmembers⟩ := hq.part.standsAt.members
  have hstate : ∀ s ∈ p.states, l.tree.IsHead s.param := fun s hs =>
    hmade.states s (List.mem_append_right _ (List.mem_flatMap.2
      ⟨p, Array.mem_toList_iff.2 (Array.mem_of_getElem? hp), hs⟩))
  exact {
    value := hmade.value h p hp
    members := hmade.members h p hp
    larger := fun j hj => (hq.member hj).1
    ascending := hmembers.pairwise
    parent := fun h' p' hp' j hj hj' => hl.parent_eq him hp' hp hj' hj
    top := ⟨q, hq.head, hq.part.top.symm, hq.part.root.symm, hq.under, fun h' p' hp' =>
      hl.top_not_mem him hp hp'⟩
    sizes := hsizes
    contents := hq.contents
    parts := hq.part.standsAt.exists_follow
    states := hnode.states.values
    apart := fun s hs => by
      obtain ⟨r, hr, hlt⟩ := hnode.states.apart s hs
      obtain ⟨q', hq', htop⟩ := hstate s hs
      rw [Tree.root?_of_node? hq'] at hr
      exact ⟨q', hq', htop, Option.some.inj hr ▸ hlt⟩
    bytes := by
      rw [hl.toNat_bytes him hp, Node.span_eq, ← hsizes, ← hsizes]
      rfl }

end Link

/-! ### Bytes -/

namespace EffectState

variable {s : EffectState} {h : Handle} {p : Parameter}

lemma exists_rawNode_iff (hp : s.effect.linked.tree.node? h = some p) (provided : Nat) :
    (∃ q, s.rawNode h provided = .ok q) ↔ p.isRaw = true ∧ p.bytes.toNat ≤ provided := by
  have hnode : s.node h = .ok p := by rw [node, hp]
  constructor
  · rintro ⟨q, hq⟩
    rw [rawNode, hnode] at hq
    by_cases hraw : p.isRaw = true <;> by_cases hfits : provided < p.bytes.toNat
    · simp [hraw, hfits, Bind.bind, Except.bind, throw, throwThe, MonadExceptOf.throw] at hq
    · exact ⟨hraw, Nat.le_of_not_lt hfits⟩
    all_goals simp [hraw, Bind.bind, Except.bind, throw, throwThe, MonadExceptOf.throw] at hq
  · rintro ⟨hraw, hfits⟩
    refine ⟨p, ?_⟩
    rw [rawNode, hnode]
    simp [hraw, Nat.not_lt.2 hfits, Bind.bind, Except.bind, pure, Except.pure]

/-- Bytes are read if the node accepts them. -/
lemma exists_getValue_iff (buffer : List UInt8) : (∃ out, s.getValue h buffer = .ok out) ↔
    ∃ q, s.rawNode h buffer.length = .ok q := by
  rw [getValue]
  cases s.rawNode h buffer.length with
  | error e => exact ⟨nofun, nofun⟩
  | ok q => exact ⟨fun _ => ⟨q, rfl⟩, fun _ => ⟨_, rfl⟩⟩

/-- Bytes are written if the node accepts them. -/
lemma exists_setValue_iff (values : List UInt8) : (∃ s', s.setValue h values = .ok s') ↔
    ∃ q, s.rawNode h values.length = .ok q := by
  rw [setValue]
  cases s.rawNode h values.length with
  | error e => exact ⟨nofun, nofun⟩
  | ok q => exact ⟨fun _ => ⟨q, rfl⟩, fun _ => ⟨_, rfl⟩⟩

end EffectState

namespace Link

variable {im : Image} {l : Linking} {h : Handle} {p : Parameter}

/-- A node accepts bytes if its value takes them. -/
lemma MirrorsNode.takesBytes_iff (hh : MirrorsNode im l h p) (provided : Nat) :
    p.isRaw = true ∧ p.bytes.toNat ≤ provided ↔ p.node.TakesBytes provided := by
  have hwords : p.words.length = (p.node.data .words).length := hh.sizes .words
  have hobjects : p.objects.length = (p.node.data .objects).length := hh.sizes .objects
  have hbytes := hh.bytes
  rw [Node.TakesBytes, Node.forall_words_iff, Parameter.isRaw, Bool.and_eq_true, beq_iff_eq,
    beq_iff_eq]
  constructor
  · rintro ⟨⟨hnone, hsize⟩, hfits⟩
    exact ⟨⟨by omega, by omega⟩, by omega⟩
  · rintro ⟨⟨hnone, hgaps⟩, hfits⟩
    exact ⟨⟨by omega, by omega⟩, by omega⟩

/-- The tree of every image that was read mirrors it, as it is laid out and as it is linked. -/
theorem mirrors_linking {stored : Bytes} (hdecode : Image.decode stored = .ok im)
    (hl : IsLinkingOf im l) : Mirrors im l := by
  have him := Image.WellFormed.of_decode hdecode
  have hnodes : ∀ h p, l.tree.node? h = some p → MirrorsNode im l h p := fun h p hp =>
    hl.mirrorsNode him hp
  have hstates := (hl.skeleton.laid (laid_start im)).states
  rw [allStates, List.map_append] at hstates
  refine ⟨fun r hr => hl.exists_mirrorsRoot him hr, hnodes, (List.nodup_append.1 hstates).2.1,
    fun s hs h p hp buffer => ?_⟩
  have htakes := (hnodes h p hp).takesBytes_iff buffer.length
  have hraw := EffectState.exists_rawNode_iff (hs ▸ hp) buffer.length
  exact ⟨(EffectState.exists_getValue_iff buffer).trans (hraw.trans htakes),
    (EffectState.exists_setValue_iff buffer).trans (hraw.trans htakes)⟩

/-- The trees of two torches and of two samplers mirror them. -/
theorem mirrors_linking_torches :
    (∃ im, Image.decode (Image.encode Image.torches).toArray = .ok im ∧ Mirrors im (start im)) ∧
    ∃ im l, Image.decode (Image.encode Image.samplerPair).toArray = .ok im ∧
      link im [] 0 = .ok l ∧ Mirrors im l := by
  obtain ⟨torches, htorches⟩ := Option.isSome_iff_exists.1
    (show Image.torches.image?.isSome = true by decide +kernel)
  obtain ⟨l, hl⟩ := Option.isSome_iff_exists.1 (show
    ((Image.decode (Image.encode Image.samplerPair).toArray).toOption.bind fun im =>
      (link im [] 0).toOption).isSome = true by decide +kernel)
  obtain ⟨pair, hpair, hlink⟩ := Option.bind_eq_some_iff.1 hl
  have htorches := (Image.isWrittenAs_torches htorches).decode
  have hpair := Image.eq_ok_of_toOption_eq_some hpair
  have hlink := Image.eq_ok_of_toOption_eq_some hlink
  exact ⟨⟨torches, htorches, mirrors_linking htorches .laid⟩,
    pair, l, hpair, hlink, mirrors_linking hpair (.linked hlink)⟩

end Link

end ShaderEffect
