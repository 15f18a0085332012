import ShaderEffect.Proofs.Link.Raised

/-!
# Parts of values that stand

What stands under a node of a tree has its place in what the node keeps (`Tree.PartOf`). Values that
follow one another have the nodes of different ranges of handles, so no node is a member of two, and
every node is a part of the one that its root was made from (`Link.Belongs`).
-/

namespace ShaderEffect

/-! ### Slices of parts -/

namespace Slice

variable {α β : Type} {s s' : Slice} {first : Nat} {whole part part' : List α}

/-- Slices follow one another, from one place to another. -/
def Follow : Nat → List Slice → Nat → Prop
  | start, [], stop => start = stop
  | start, s :: rest, stop => s.start = start ∧ Follow s.stop rest stop

/-- A slice is the place of a part in a whole that starts at some place. -/
def Cuts (s : Slice) (first : Nat) (whole part : List α) : Prop :=
  ∃ before after, whole = before ++ part ++ after ∧ s = ⟨first + before.length, part.length⟩

lemma Cuts.refl (first : Nat) (whole : List α) : Cuts ⟨first, whole.length⟩ first whole whole :=
  ⟨[], [], by simp, rfl⟩

lemma Cuts.append_left (h : s.Cuts (first + part'.length) whole part) :
    s.Cuts first (part' ++ whole) part := by
  obtain ⟨before, after, rfl, rfl⟩ := h
  exact ⟨part' ++ before, after, by simp, by simp [Nat.add_assoc]⟩

lemma Cuts.append_right (h : s.Cuts first whole part) (more : List α) :
    s.Cuts first (whole ++ more) part := by
  obtain ⟨before, after, rfl, rfl⟩ := h
  exact ⟨before, after ++ more, by simp, rfl⟩

/-- A part of a part is a part of the whole. -/
lemma Cuts.trans (h : s.Cuts first whole part) (h' : s'.Cuts s.start part part') :
    s'.Cuts first whole part' := by
  obtain ⟨before, after, rfl, rfl⟩ := h
  obtain ⟨before', after', rfl, rfl⟩ := h'
  exact ⟨before ++ before', after' ++ after, by simp, by simp [Nat.add_assoc]⟩

lemma Cuts.map (f : α → β) (h : s.Cuts first whole part) :
    s.Cuts first (whole.map f) (part.map f) := by
  obtain ⟨before, after, rfl, rfl⟩ := h
  exact ⟨before.map f, after.map f, by simp, by simp⟩

/-- The values at the place of a part are the part. -/
lemma Cuts.read (h : s.Cuts 0 whole part) : s.read whole.toArray = part := by
  obtain ⟨before, after, rfl, rfl⟩ := h
  simp [Slice.read]

end Slice

/-! ### Nodes under nodes -/

namespace Tree

variable {t : Tree} {r : Nat} {head h i j : Handle} {p q : Parameter}

/-- What is under a node is the node, or under one of its members. -/
lemma Under.eq_or_member (h : t.Under i j) :
    j = i ∨ ∃ p m, t.node? i = some p ∧ m ∈ p.members ∧ t.Under m j := by
  induction h with
  | refl => exact .inl rfl
  | member _ hp hmem ih =>
    rcases ih with rfl | ⟨p', m, hp', hm, hunder⟩
    · exact .inr ⟨_, _, hp, hmem, .refl⟩
    · exact .inr ⟨p', m, hp', hm, hunder.member hp hmem⟩

/-- A node stands at its place, and its members stand after it. -/
structure StandsAt (t : Tree) (h : Handle) (p : Parameter) : Prop where
  nodeFor : t.NodeFor p.root p.top p.node h.index (fun k => (k.slice p).start) p
  members : ∃ stop, t.Stands p.root p.top p.node.children (h.index + 1)
    (fun k => (k.slice p).start) p.members stop

/-- A node stands under another, from which it has its root. Its slices are the places of what it
keeps in what the other keeps. -/
structure PartOf (t : Tree) (i : Handle) (p : Parameter) (j : Handle) (q : Parameter) : Prop where
  node? : t.node? j = some q
  standsAt : t.StandsAt j q
  root : q.root = p.root
  top : q.top = p.top
  cuts : ∀ k : Storage, (k.slice q).Cuts (k.slice p).start (p.node.data k) (q.node.data k)
  le : i.index ≤ j.index

namespace Stands

variable {ns : List Node} {first stop : Nat} {start : Storage → Nat} {hs : List Handle}

/-- The nodes of values that stand, each at its place. -/
lemma exists_standsAt (h : t.Stands r head ns first start hs stop) :
    ∀ j ∈ hs, ∃ q, t.node? j = some q ∧ t.StandsAt j q ∧ q.root = r ∧ q.top = head ∧
      ∀ k : Storage, (k.slice q).Cuts (start k) (Node.dataOf ns k) (q.node.data k) := by
  induction h with
  | nil => exact fun j hj => by cases hj
  | @cons n rest i inner next stop start p hs hnode hinner hnext hrest _ ih =>
    intro j hj
    rcases List.mem_cons.1 hj with rfl | hj
    · have hstart : (fun k : Storage => (k.slice p).start) = start :=
        funext fun k => by rw [hnode.slice k]
      obtain ⟨hp, rfl, rfl, rfl, hslice, -⟩ := id hnode
      refine ⟨p, hp, ⟨hstart ▸ hnode, inner, hstart ▸ hinner⟩, rfl, rfl, fun k => ?_⟩
      rw [hslice k, Node.dataOf_cons]
      exact (Slice.Cuts.refl _ _).append_right _
    · obtain ⟨q, hq, hstands, hroot, htop, hcuts⟩ := ih j hj
      refine ⟨q, hq, hstands, hroot, htop, fun k => ?_⟩
      rw [Node.dataOf_cons]
      exact (hcuts k).append_left

lemma length_eq (h : t.Stands r head ns first start hs stop) : hs.length = ns.length := by
  induction h with
  | nil => rfl
  | cons _ _ _ _ _ ih => exact congrArg (· + 1) ih

/-- The handles of values that stand ascend. -/
lemma pairwise (h : t.Stands r head ns first start hs stop) :
    hs.Pairwise (·.index < ·.index) := by
  induction h with
  | nil => exact .nil
  | @cons n rest i inner next stop start p hs hnode hinner hnext hrest _ ih =>
    refine .cons (fun j hj => ?_) ih
    have hle := hinner.le
    have hle' := (hrest.exists_node? j hj).1
    show i < j.index
    omega

/-- What is under values that stand is where they stand. -/
lemma lt_of_under (h : t.Stands r head ns first start hs stop) :
    ∀ i ∈ hs, ∀ j, t.Under i j → first ≤ j.index ∧ j.index < stop := by
  induction h with
  | nil => exact fun i hi => by cases hi
  | @cons n rest first inner next stop start p hs hnode hinner hnext hrest ih ih' =>
    have hle := hinner.le
    have hle' := hrest.le
    intro i hi j hj
    rcases List.mem_cons.1 hi with rfl | hi
    · rcases hj.eq_or_member with rfl | ⟨p', m, hp', hm, hj⟩
      · exact ⟨Nat.le_refl _, show first < stop by omega⟩
      · obtain rfl := Option.some.inj (hp'.symm.trans hnode.node?)
        have hbounds := ih m hm j hj
        omega
    · have hbounds := ih' i hi j hj
      omega

/-- Nothing is under two of several values that stand. -/
lemma eq_of_under (h : t.Stands r head ns first start hs stop) :
    ∀ i ∈ hs, ∀ i' ∈ hs, ∀ j, t.Under i j → t.Under i' j → i = i' := by
  induction h with
  | nil => exact fun i hi => by cases hi
  | cons hnode hinner hnext hrest _ ih =>
    have hfirst := Stands.cons hnode hinner hnext .nil
    intro i hi i' hi' j hj hj'
    rcases List.mem_cons.1 hi with rfl | hi <;> rcases List.mem_cons.1 hi' with rfl | hi'
    · rfl
    · have hlt := (hfirst.lt_of_under _ List.mem_cons_self j hj).2
      have hle := (hrest.lt_of_under i' hi' j hj').1
      omega
    · have hlt := (hfirst.lt_of_under _ List.mem_cons_self j hj').2
      have hle := (hrest.lt_of_under i hi j hj).1
      omega
    · exact ih i hi i' hi' j hj hj'

/-- The slices of values that stand follow one another. -/
lemma exists_follow (h : t.Stands r head ns first start hs stop) :
    ∃ qs : List Parameter, hs.map t.node? = qs.map some ∧ ∀ k : Storage,
      Slice.Follow (start k) (qs.map k.slice) (start k + (Node.dataOf ns k).length) := by
  induction h with
  | nil => exact ⟨[], rfl, fun k => rfl⟩
  | @cons n rest first inner next stop start p hs hnode hinner hnext hrest _ ih =>
    obtain ⟨qs, hqs, hfollow⟩ := ih
    refine ⟨p :: qs, congrArg₂ List.cons hnode.node? hqs, fun k => ?_⟩
    rw [List.map_cons, Slice.Follow, hnode.slice k, Node.dataOf_cons, List.length_append,
      ← Nat.add_assoc]
    exact ⟨rfl, hfollow k⟩

end Stands

namespace StandsAt

lemma refl (h : t.StandsAt i p) (hp : t.node? i = some p) : t.PartOf i p i p where
  node? := hp
  standsAt := h
  root := rfl
  top := rfl
  cuts k := by
    have hslice := h.nodeFor.slice k
    rw [hslice]
    exact .refl _ _
  le := Nat.le_refl _

/-- A member is a part, and its handle is larger. -/
lemma exists_member (h : t.StandsAt i p) (hj : j ∈ p.members) :
    i.index < j.index ∧ ∃ q, t.PartOf i p j q := by
  obtain ⟨stop, hmembers⟩ := h.members
  obtain ⟨q, hq, hstands, hroot, htop, hcuts⟩ := hmembers.exists_standsAt j hj
  have hlt := (hmembers.exists_node? j hj).1
  have hleaf : p.node.isLeaf = false := by
    have hlength := List.length_pos_of_mem hj
    rw [hmembers.length_eq] at hlength
    cases hnode : p.node <;> first
      | rfl
      | simp [hnode, Node.children] at hlength
  exact ⟨hlt, q, hq, hstands, hroot, htop, Node.data_eq_dataOf hleaf ▸ hcuts, Nat.le_of_lt hlt⟩

/-- What is under a node that stands is part of it. -/
lemma exists_partOf (h : t.StandsAt i p) (hp : t.node? i = some p) (hunder : t.Under i j) :
    ∃ q, t.PartOf i p j q := by
  induction hunder with
  | refl => exact ⟨p, h.refl hp⟩
  | member _ hq' hmem ih =>
    obtain ⟨q, hq⟩ := ih
    obtain rfl := Option.some.inj (hq'.symm.trans hq.node?)
    obtain ⟨hlt, m, hm⟩ := hq.standsAt.exists_member hmem
    exact ⟨m, hm.node?, hm.standsAt, hm.root.trans hq.root, hm.top.trans hq.top,
      fun k => (hq.cuts k).trans (hm.cuts k), Nat.le_trans hq.le hm.le⟩

/-- The slices of the members follow one another in that of the node. -/
lemma exists_follow (h : t.StandsAt i p) (hleaf : p.node.isLeaf = false) :
    ∃ qs : List Parameter, p.members.map t.node? = qs.map some ∧ ∀ k : Storage,
      Slice.Follow (k.slice p).start (qs.map k.slice) (k.slice p).stop := by
  obtain ⟨stop, hmembers⟩ := h.members
  obtain ⟨qs, hqs, hfollow⟩ := hmembers.exists_follow
  refine ⟨qs, hqs, fun k => ?_⟩
  have hslice := h.nodeFor.slice k
  rw [Slice.stop, hslice, Node.data_eq_dataOf hleaf]
  exact hfollow k

end StandsAt

/-- No node under values that stand is a member of two. -/
lemma Stands.parent_eq {ns : List Node} {first stop : Nat} {start : Storage → Nat}
    {hs : List Handle} (h : t.Stands r head ns first start hs stop) :
    ∀ a ∈ hs, ∀ (i i' j : Handle) (p p' : Parameter), t.Under a i → t.Under a i' →
      t.node? i = some p → t.node? i' = some p' → j ∈ p.members → j ∈ p'.members → i = i' := by
  induction h with
  | nil => exact fun a ha => by cases ha
  | @cons n rest first inner next stop start q hs hnode hinner hnext hrest ih ih' =>
    -- A member of the first node is under no other member of it.
    have hself : ∀ (i j m : Handle) (p : Parameter), m ∈ q.members → t.Under m i →
        t.node? i = some p → j ∈ p.members → j ∉ q.members := by
      intro i j m p hm hmi hp hj hj'
      obtain rfl := hinner.eq_of_under m hm j hj' j (hmi.member hp hj) .refl
      obtain ⟨q', hq', hstands, -⟩ := hinner.exists_standsAt m hm
      obtain ⟨p', hpart⟩ := hstands.exists_partOf hq' hmi
      obtain rfl := Option.some.inj (hp.symm.trans hpart.node?)
      have hlt := (hpart.standsAt.exists_member hj).1
      have hle := hpart.le
      omega
    intro a ha i i' j p p' hi hi' hp hp' hj hj'
    rcases List.mem_cons.1 ha with rfl | ha
    · rcases hi.eq_or_member with rfl | ⟨q', m, hq', hm, hmi⟩ <;>
        rcases hi'.eq_or_member with rfl | ⟨q'', m', hq'', hm', hmi'⟩
      · rfl
      · obtain rfl := Option.some.inj (hq''.symm.trans hnode.node?)
        obtain rfl := Option.some.inj (hp.symm.trans hnode.node?)
        exact absurd hj (hself i' j m' p' hm' hmi' hp' hj')
      · obtain rfl := Option.some.inj (hq'.symm.trans hnode.node?)
        obtain rfl := Option.some.inj (hp'.symm.trans hnode.node?)
        exact absurd hj' (hself i j m p hm hmi hp hj)
      · obtain rfl := Option.some.inj (hq'.symm.trans hnode.node?)
        obtain rfl := Option.some.inj (hq''.symm.trans hnode.node?)
        obtain rfl := hinner.eq_of_under m hm m' hm' j (hmi.member hp hj) (hmi'.member hp' hj')
        exact ih m hm i i' j p p' hmi hmi' hp hp' hj hj'
    · exact ih' a ha i i' j p p' hi hi' hp hp' hj hj'

end Tree

/-! ### Nodes of linked images -/

namespace Link

variable {im : Image} {l : Linking} {r : Nat} {n : Node} {i : Nat} {h h' j : Handle}
  {p p' q : Parameter}

/-- The value of a root stands at its node. -/
lemma RaisedBy.exists_standsAt (h : RaisedBy im l r n i) : ∃ q, l.tree.node? ⟨i⟩ = some q ∧
    l.tree.StandsAt ⟨i⟩ q ∧ q.root = r ∧ q.top = ⟨i⟩ ∧ q.node = n ∧
      ∀ k : Storage, (k.slice q).start = 0 := by
  obtain ⟨stop, hstands⟩ := h.stands
  obtain ⟨q, hq, hat, hroot, htop, -⟩ := hstands.exists_standsAt ⟨i⟩ List.mem_cons_self
  cases hstands with
  | cons hnode _ _ _ =>
    obtain rfl := Option.some.inj (hq.symm.trans hnode.node?)
    exact ⟨q, hq, hat, hroot, htop, hnode.node, fun k => by rw [hnode.slice k]⟩

/-- A node is a part of the one that its root was made from. -/
structure Belongs (im : Image) (l : Linking) (h : Handle) (p q : Parameter) : Prop where
  raised : RaisedBy im l p.root q.node p.top.index
  head : l.tree.node? p.top = some q
  under : l.tree.Under p.top h
  part : l.tree.PartOf p.top q h p
  start : ∀ k : Storage, (k.slice q).start = 0

/-- Every node belongs to a root. -/
theorem IsLinkingOf.exists_belongs (him : im.WellFormed) (hl : IsLinkingOf im l)
    (hp : l.tree.node? h = some p) : ∃ q, Belongs im l h p q := by
  have hr : p.root < l.tree.initial.size :=
    (hl.skeleton.laid (laid_start im)).root_lt h p.root (Tree.root?_of_node? hp)
  obtain ⟨n, i, hraised⟩ := hl.exists_raisedBy him hr
  obtain ⟨q, hq, hstands, hroot, htop, rfl, hstart⟩ := hraised.exists_standsAt
  obtain ⟨flags, top, hnests⟩ := (hl.skeleton.nested (nested_start im)).roots p.root hr
  obtain rfl : top = ⟨i⟩ := (hnests.top_eq _ q (Nat.zero_le _) hq hroot).symm.trans htop
  have hptop : p.top = ⟨i⟩ := hnests.top_eq h p (Nat.zero_le _) hp rfl
  obtain ⟨top, hmem, hunder⟩ := hnests.under h p (Nat.zero_le _) hp rfl
  obtain rfl := List.mem_singleton.1 hmem
  obtain ⟨p', hpart⟩ := hstands.exists_partOf hq hunder
  obtain rfl := Option.some.inj (hp.symm.trans hpart.node?)
  exact ⟨q, hptop ▸ hraised, hptop ▸ hq, hptop ▸ hunder, hptop ▸ hpart, hstart⟩

/-- Members have the root of the node, and belong to the same one. -/
lemma Belongs.member (hh : Belongs im l h p q) (hj : j ∈ p.members) :
    h.index < j.index ∧ ∃ m, l.tree.node? j = some m ∧ m.root = p.root ∧ m.top = p.top := by
  obtain ⟨hlt, m, hm⟩ := hh.part.standsAt.exists_member hj
  exact ⟨hlt, m, hm.node?, hm.root, hm.top⟩

/-- A node is a member of at most one. -/
theorem IsLinkingOf.parent_eq (him : im.WellFormed) (hl : IsLinkingOf im l)
    (hp : l.tree.node? h = some p) (hp' : l.tree.node? h' = some p') (hj : j ∈ p.members)
    (hj' : j ∈ p'.members) : h = h' := by
  obtain ⟨q, hq⟩ := hl.exists_belongs him hp
  obtain ⟨q', hq'⟩ := hl.exists_belongs him hp'
  obtain ⟨-, m, hm, -, htop⟩ := hq.member hj
  obtain ⟨-, m', hm', -, htop'⟩ := hq'.member hj'
  obtain rfl := Option.some.inj (hm.symm.trans hm')
  obtain ⟨stop, hstands⟩ := hq.raised.stands
  refine hstands.parent_eq p.top List.mem_cons_self h h' j p p' hq.under ?_ hp hp' hj hj'
  exact htop.symm.trans htop' ▸ hq'.under

/-- The node that a root was made from is a member of none. -/
theorem IsLinkingOf.top_not_mem (him : im.WellFormed) (hl : IsLinkingOf im l)
    (hp : l.tree.node? h = some p) (hp' : l.tree.node? h' = some p') : p.top ∉ p'.members := by
  intro hmem
  obtain ⟨q, hq⟩ := hl.exists_belongs him hp
  obtain ⟨q', hq'⟩ := hl.exists_belongs him hp'
  obtain ⟨hlt, m, hm, -, htop⟩ := hq'.member hmem
  obtain rfl := Option.some.inj (hm.symm.trans hq.head)
  have hle := hq'.part.le
  rw [← htop, hq.part.top.symm] at hle
  omega

end Link

end ShaderEffect
