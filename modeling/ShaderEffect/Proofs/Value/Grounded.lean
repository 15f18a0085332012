import ShaderEffect.Proofs.Host.Bounded
import ShaderEffect.Proofs.Link.Arena

/-!
# Effects of images that were read

What accessors rely on: the tree of an effect mirrors its image, and the values of all its nodes are
there (`EffectState.Grounded`). Every effect that comes about from images that were read is like
this, and stays so whatever is written.
-/

namespace ShaderEffect

/-! ### Values of their declarations -/

namespace Node

variable {n : Node} {objectCount : UInt32}

/-- What is declared as numbers, and not as an array, is words. -/
lemma Valid.exists_words (h : n.Valid objectCount) (helements : n.decl.elements = 0)
    (hnumeric : n.decl.cls.isNumeric = true) : ∃ ws, n = .words n.decl ws ∧
      IsSmall n.decl.rows ∧ IsSmall n.decl.columns ∧
      ws.length = n.decl.rows.toNat * n.decl.columns.toNat := by
  cases n with
  | array d elements => exact absurd helements (Ne.symm (UInt32.ne_of_lt h.1))
  | words d ws => exact ⟨ws, rfl, h.2.2.2.1, h.2.2.2.2.1, h.2.2.2.2.2⟩
  | struct | object | sampler | unsupported =>
    have hcls := congrArg ParameterClass.isNumeric h.2.1
    exact absurd (hcls.symm.trans hnumeric) Bool.false_ne_true

end Node

/-! ### Grounded states -/

/-- The tree of an effect was linked from an image that is well-formed, and what its nodes address
is inside their blocks, and inside what their roots held at first. -/
structure EffectState.Grounded (s : EffectState) (l : Link.Linking) : Prop where
  image : s.linked.image.WellFormed
  linking : Link.IsLinkingOf s.linked.image l
  tree : s.tree = l.tree
  counter_lt : s.linked.counter < s.memory.counters.size
  slices : ∀ h p, s.tree.node? h = some p → ∃ id c, s.linked.blockOf? h = some id ∧
    id < s.memory.blocks.size ∧ s.tree.initial[p.root]? = some c ∧ ∀ k : Storage,
      (k.slice p).stop ≤ k.size (s.memory.block id).toContents ∧ (k.slice p).stop ≤ k.size c

/-- Effects that come about from images that were read are grounded. -/
theorem Host.exists_grounded {ops : List HostOperation} (hops : ∀ op ∈ ops, op.FromStored)
    {i : Nat} {s : EffectState} (hs : (run {} ops).state? i = some s) : ∃ l, s.Grounded l := by
  obtain ⟨use, hlayout⟩ := laidOut_empty
  obtain ⟨use', tiles, hlayout', htiled⟩ := tiled_run hops hlayout (@tiled_empty fun _ => [])
  obtain ⟨heffect, hmemory⟩ := state?_eq_some.1 hs
  have hfits := hlayout'.effects i s.effect heffect
  obtain ⟨stored, hdecode⟩ := (htiled.effects i s.effect heffect).image
  obtain ⟨n, l, hlink, htree, -⟩ := hfits.linked
  refine ⟨l, .of_decode hdecode, .linked hlink, htree, hmemory ▸ hfits.counter_lt, ?_⟩
  rw [hmemory]
  exact (bounded_of_tiled hlayout' htiled).slices i s hs

/-- The state of an effect that was just made from what was written. -/
def WrittenEffect.state? (e : WrittenEffect) : Option EffectState := do
  let im ← (Image.decode (Image.encode e).toArray).toOption
  (Host.run {} [.create im [] none]).state? 0

lemma WrittenEffect.exists_run {e : WrittenEffect} {s : EffectState} (h : e.state? = some s) :
    ∃ ops, (∀ op ∈ ops, HostOperation.FromStored op) ∧ (Host.run {} ops).state? 0 = some s := by
  rw [state?, Option.bind_eq_bind, Option.bind_eq_some_iff] at h
  obtain ⟨im, him, hs⟩ := h
  refine ⟨_, fun op hop => ?_, hs⟩
  obtain rfl := List.mem_singleton.1 hop
  exact ⟨_, Image.eq_ok_of_toOption_eq_some him⟩

/-- An effect of one parameter: a struct of a number, two matrices and two vectors. -/
def lantern : WrittenEffect where
  parameters := [⟨.struct "lantern" [.scalar 3 "power",
    (WrittenType.matrix false 2 "turns" 2 3).array 2, (WrittenType.vector 3 "tints" 4).array 2],
    (List.range 21).map (.word ·.toUInt32), 0, []⟩]
  techniques := []
  objectCount := 1
  objectData := []
  resources := []

namespace EffectState.Grounded

variable {s s' : EffectState} {l : Link.Linking} (hs : s.Grounded l) {h j : Handle}
  {p : Parameter}
include hs

lemma mirrors (hp : s.tree.node? h = some p) : Link.MirrorsNode s.linked.image l h p :=
  hs.linking.mirrorsNode hs.image (hs.tree ▸ hp)

lemma valid (hp : s.tree.node? h = some p) : p.node.Valid s.linked.image.objectCount := by
  obtain ⟨place, hplace⟩ := (hs.mirrors hp).value
  exact hs.image.valid p.node place hplace

/-- The members of a node are there, and are made from the parts of its value. -/
lemma exists_member (hp : s.tree.node? h = some p) (hj : j ∈ p.members) :
    ∃ q, s.tree.node? j = some q ∧ q.node ∈ p.node.children := by
  have hvalue := List.mem_map_of_mem (f := l.tree.value?) hj
  rw [(hs.mirrors hp).members] at hvalue
  obtain ⟨n, hn, hvalue⟩ := List.mem_map.1 hvalue
  obtain ⟨q, hq, rfl⟩ := Option.map_eq_some_iff.1 hvalue.symm
  exact ⟨q, hs.tree ▸ hq, hn⟩

/-- What the members of a node address follows one another, and is all that the node addresses. -/
lemma exists_parts (hp : s.tree.node? h = some p) (hj : j ∈ p.members) : ∃ qs : List Parameter,
    p.members.map s.tree.node? = qs.map some ∧
      ∀ k : Storage, Slice.Follow (k.slice p).start (qs.map k.slice) (k.slice p).stop := by
  have hmirrors := hs.mirrors hp
  have hleaf : p.node.isLeaf = false := by
    obtain ⟨q, -, hchild⟩ := hs.exists_member hp hj
    cases hnode : p.node <;> rw [hnode] at hchild <;> first
      | rfl
      | cases hchild
  rw [hs.tree]
  exact hmirrors.parts hleaf

/-- An array has the elements that it declares, each of the declared shape. -/
lemma members_of_array (hp : s.tree.node? h = some p) (helements : p.decl.elements ≠ 0) :
    p.members.length = p.decl.elements.toNat ∧
      ∀ j ∈ p.members, ∃ q, s.tree.node? j = some q ∧ q.decl = p.decl.element := by
  rw [hs.tree] at hp ⊢
  exact (hs.linking.skeleton.made (Link.made_start _)).members_of_array hs.image hp helements

lemma length_words (hp : s.tree.node? h = some p) : (s.words h).length = p.words.length := by
  obtain ⟨id, c, hid, -, -, hstop⟩ := hs.slices h p hp
  rw [words, LinkedEffect.words, hp, hid]
  exact Slice.length_read_of_stop_le (hstop .words).1

/-- Numbers that are no array have a word for each row and column. -/
lemma length_words_of_numeric (hp : s.tree.node? h = some p) (helements : p.decl.elements = 0)
    (hnumeric : p.decl.cls.isNumeric = true) : IsSmall p.decl.rows ∧ IsSmall p.decl.columns ∧
      (s.words h).length = p.decl.rows.toNat * p.decl.columns.toNat := by
  obtain ⟨ws, hnode, hrows, hcolumns, hlength⟩ := (hs.valid hp).exists_words helements hnumeric
  have hsize : p.words.length = (p.node.data .words).length := (hs.mirrors hp).sizes .words
  rw [hnode] at hsize
  refine ⟨hrows, hcolumns, ?_⟩
  rw [hs.length_words hp, hsize, Parameter.decl, ← hlength]
  simp [Node.data, Node.leafNodes, Node.leafData]

/-- Whatever is written, the values of all nodes are still there. -/
lemma setting {hs' : List Handle} (hset : Setting s hs' s') : s'.Grounded l where
  image := hset.linked ▸ hs.image
  linking := hset.linked ▸ hs.linking
  tree := (congrArg LinkedEffect.tree hset.linked).trans hs.tree
  counter_lt := by
    rw [hset.linked, hset.size_counters]
    exact hs.counter_lt
  slices h p hp := by
    rw [EffectState.tree, hset.linked] at hp ⊢
    obtain ⟨id, c, hid, hlt, hc, hstop⟩ := hs.slices h p hp
    refine ⟨id, c, hid, hset.writes.size_blocks ▸ hlt, hc, fun k => ⟨?_, (hstop k).2⟩⟩
    have hsize : k.size (s'.memory.block id).toContents =
        k.size (s.memory.block id).toContents := by
      cases k with
      | words => exact hset.writes.size_words id
      | objects => exact hset.writes.size_objects id
    rw [hsize]
    exact (hstop k).1

/-- A node that is reset has the words of its value and the objects that this refers to. -/
lemma exists_restored (hp : s.tree.node? h = some p) : ∃ s', s.resetValue h = .ok s' ∧
    s'.linked = s.linked ∧ s'.memory = s.linked.resetValue s.memory h ∧
    s'.words h = p.node.data .words ∧ s'.objects h = (p.node.data .objects).map l.objects.get? := by
  obtain ⟨s', hreset, hlinked, hmemory⟩ := exists_resetValue hp
  obtain ⟨id, c, hid, hlt, hc, hstop⟩ := hs.slices h p hp
  obtain ⟨c', hc', hwords, hobjects⟩ := (hs.mirrors hp).contents
  rw [← hs.tree, hc, Option.some.injEq] at hc'
  subst hc'
  have hvalues : ∀ k : Storage, s'.values k h = (k.slice p).read (k.values c) := fun k => by
    rw [values, hlinked, hmemory]
    exact LinkedEffect.values_resetValue hp hid hlt hc hstop k
  exact ⟨s', hreset, hlinked, hmemory, (hvalues .words).trans hwords,
    (hvalues .objects).trans hobjects⟩

end EffectState.Grounded

/-! ### Words that are read and written -/

namespace EffectState

variable {s : EffectState} {h : Handle} {p : Parameter}

lemma node_eq_ok_iff : s.node h = .ok p ↔ s.tree.node? h = some p := by
  rw [node]
  cases s.tree.node? h <;> simp

lemma readIf_of_node {α : Type} {accepts : Parameter → Bool} {error : CallError}
    {read : Parameter → List UInt32 → α} (hp : s.tree.node? h = some p) :
    s.readIf h accepts error read =
      if accepts p then .ok (read p (s.words h)) else .error error := by
  rw [readIf, node_eq_ok_iff.2 hp]

lemma writeIf_of_node {accepts : Parameter → Bool} {error : CallError}
    {write : Parameter → List UInt32 → List UInt32} (hp : s.tree.node? h = some p) :
    s.writeIf h accepts error write =
      if accepts p then .ok (s.writeWords h (write p)) else .error error := by
  rw [writeIf, node_eq_ok_iff.2 hp]

lemma linked_writeWords (f : List UInt32 → List UInt32) : (s.writeWords h f).linked = s.linked := by
  rw [writeWords, record]
  split <;> rfl

lemma tree_writeWords (f : List UInt32 → List UInt32) : (s.writeWords h f).tree = s.tree :=
  congrArg LinkedEffect.tree (linked_writeWords f)

lemma memory_writeWords (f : List UInt32 → List UInt32) :
    (s.writeWords h f).memory = s.linked.writeWords s.memory h f := by
  rw [writeWords, record]
  split <;> rfl

/-- A parameter reads as what was written, if as many words were written as it has. -/
lemma words_writeWords_self {f : List UInt32 → List UInt32}
    (hf : ∀ words, (f words).length = words.length) :
    (s.writeWords h f).words h = f (s.words h) := by
  rw [words, linked_writeWords, memory_writeWords, LinkedEffect.words_writeWords hf]
  rfl

/-- What is disjoint from all that was written has the values it had. -/
lemma Setting.values_eq {s' : EffectState} {hs : List Handle} {g : Handle} (hset : Setting s hs s')
    (hdisjoint : ∀ i ∈ hs, s.linked.Disjoint i g) (k : Storage) : s'.values k g = s.values k g := by
  rw [values, hset.linked]
  exact hset.within.values_eq hdisjoint k

end EffectState

/-! ### Lists that are overlaid -/

lemma overlay_eq {α : Type} {new old : List α} (h : new.length = old.length) :
    overlay new old = new := by
  rw [overlay, ← h, List.take_length, h, List.drop_length, List.append_nil]

lemma length_overlay {α : Type} (new old : List α) : (overlay new old).length = old.length := by
  rw [overlay, List.length_append, List.length_take, List.length_drop]
  omega

lemma getElem?_overlay {α : Type} (new old : List α) (k : Nat) :
    (overlay new old)[k]? = if k < new.length ∧ k < old.length then new[k]? else old[k]? := by
  rw [overlay, List.getElem?_append, List.length_take]
  split
  · rename_i hk
    rw [if_pos (by omega), List.getElem?_take_of_lt (by omega)]
  · rename_i hk
    by_cases hold : k < old.length
    · rw [if_neg (by omega), List.getElem?_drop]
      congr 1
      omega
    · rw [if_neg (by omega), List.getElem?_eq_none (by rw [List.length_drop]; omega),
        List.getElem?_eq_none (by omega)]

end ShaderEffect
