import ShaderEffect.Proofs.Link.Nested
import ShaderEffect.Proofs.Link.Tile
import ShaderEffect.Proofs.Link.Sources

/-!
# Blocks are tiled by leaves

When a tree grows, each root that is added gets as many words and object slots as its leaves take,
each leaf of it addresses its own part, and the parts follow one another without a gap
(`Tree.Lays`). What is under a root then stays as it is, so this holds of the roots of linked trees.
-/

namespace ShaderEffect

/-- The nodes of a root. -/
def nodesOf (r : Nat) (ps : List Parameter) : List Parameter := ps.filter (·.root = r)

lemma nodesOf_append (r : Nat) (ps qs : List Parameter) :
    nodesOf r (ps ++ qs) = nodesOf r ps ++ nodesOf r qs :=
  List.filter_append ..

lemma nodesOf_eq_nil {r : Nat} {ps : List Parameter} (h : ∀ p ∈ ps, p.root ≠ r) :
    nodesOf r ps = [] :=
  List.filter_eq_nil_iff.2 fun p hp => by simpa using h p hp

/-- The leaves among nodes, each with its shape and the part of the block that it addresses. -/
def Storage.leafSpots (k : Storage) (ps : List Parameter) : List (NodeShape × Slice) :=
  (ps.filter (·.node.isLeaf)).map fun p => (p.decl.shape, k.slice p)

lemma Storage.leafSpots_append (k : Storage) (ps qs : List Parameter) :
    k.leafSpots (ps ++ qs) = k.leafSpots ps ++ k.leafSpots qs := by
  rw [leafSpots, List.filter_append, List.map_append]
  rfl

/-- A root of a tree has room for some leaves, and its nodes address it as these take it. -/
structure Tree.Lays (t : Tree) (r : Nat) (ls : List Tile) : Prop where
  size : ∃ c, t.initial[r]? = some c ∧ ∀ k : Storage, k.size c = k.total ls
  leaves : ∀ k : Storage, k.leafSpots (nodesOf r t.nodes.toList) = k.spots ls 0
  stop_le : ∀ k : Storage, ∀ p ∈ nodesOf r t.nodes.toList, (k.slice p).stop ≤ k.total ls

lemma Tree.Lays.unique {t : Tree} {r : Nat} {ls ls' : List Tile} (h : t.Lays r ls)
    (h' : t.Lays r ls') : ls = ls' :=
  @Storage.eq_of_spots_eq _ _ (fun _ => 0) fun k => (h.leaves k).symm.trans (h'.leaves k)

/-- A leaf of a root that addresses a place of its block. -/
structure Tree.LeafAt (t : Tree) (k : Storage) (r j : Nat) (h : Handle) (p : Parameter) : Prop where
  node : t.node? h = some p
  root : p.root = r
  leaf : p.node.isLeaf = true
  has : (k.slice p).Has j

/-- A leaf that comes before another one has its part before. -/
lemma Tree.Lays.not_leafAt_of_lt {t : Tree} {r : Nat} {ls : List Tile} (hlays : t.Lays r ls)
    {k : Storage} {j : Nat} {h h' : Handle} {p p' : Parameter} (hp : t.LeafAt k r j h p)
    (hlt : h.index < h'.index) : ¬t.LeafAt k r j h' p' := by
  intro hp'
  have hpairwise := k.pairwise_spots ls 0
  rw [← hlays.leaves k, Storage.leafSpots, nodesOf, List.pairwise_map, List.pairwise_filter,
    List.pairwise_filter, List.pairwise_iff_getElem] at hpairwise
  obtain ⟨hi, rfl⟩ := Array.getElem?_eq_some_iff.1 hp.node
  obtain ⟨hi', rfl⟩ := Array.getElem?_eq_some_iff.1 hp'.node
  have hstop : (k.slice t.nodes[h.index]).stop ≤ (k.slice t.nodes[h'.index]).start :=
    hpairwise h.index h'.index hi hi' hlt (by simpa using hp.root) (by simpa using hp'.root)
      hp.leaf hp'.leaf
  have hlow := hp.has.2
  have hhigh := hp'.has.1
  omega

/-- The parts of leaves of a root do not overlap. -/
lemma Tree.Lays.leafAt_unique {t : Tree} {r : Nat} {ls : List Tile} (hlays : t.Lays r ls)
    {k : Storage} {j : Nat} {h h' : Handle} {p p' : Parameter} (hp : t.LeafAt k r j h p)
    (hp' : t.LeafAt k r j h' p') : h = h' := by
  rcases Nat.lt_trichotomy h.index h'.index with hlt | heq | hlt
  · exact absurd hp' (hlays.not_leafAt_of_lt hp hlt)
  · exact congrArg Handle.mk heq
  · exact absurd hp (hlays.not_leafAt_of_lt hp' hlt)

/-- Each place of a block is addressed by a leaf of the root. -/
lemma Tree.Lays.exists_leafAt {t : Tree} {r : Nat} {ls : List Tile} (hlays : t.Lays r ls)
    {k : Storage} {j : Nat} {x : NodeShape × Slice} (hx : x ∈ k.spots ls 0) (hj : x.2.Has j) :
    ∃ h p, t.LeafAt k r j h p ∧ p.decl.shape = x.1 ∧ k.slice p = x.2 := by
  rw [← hlays.leaves k] at hx
  obtain ⟨p, hp, rfl⟩ := List.mem_map.1 hx
  obtain ⟨hmem, hleaf⟩ := List.mem_filter.1 hp
  obtain ⟨hmem, hroot⟩ := List.mem_filter.1 hmem
  obtain ⟨i, hi⟩ := List.mem_iff_getElem?.1 hmem
  rw [Array.getElem?_toList] at hi
  exact ⟨⟨i⟩, p, ⟨hi, by simpa using hroot, hleaf, hj⟩, rfl, rfl⟩

/-! ### What does not matter -/

/-- The part of a node that says what it addresses. -/
def Parameter.core (p : Parameter) : Parameter :=
  { p with members := [], annotations := [], flags := 0, bytes := 0, top := ⟨0⟩, states := [] }

lemma nodesOf_map_core (r : Nat) (ps : List Parameter) :
    nodesOf r (ps.map Parameter.core) = (nodesOf r ps).map Parameter.core :=
  List.filter_map

lemma Storage.leafSpots_map_core (k : Storage) (ps : List Parameter) :
    k.leafSpots (ps.map Parameter.core) = k.leafSpots ps := by
  rw [leafSpots, List.filter_map, List.map_map]
  cases k <;> rfl

/-- What a root keeps is a matter of what the nodes address and of sizes only. -/
lemma Tree.Lays.congr {t t' : Tree} {r : Nat} {ls : List Tile} (h : t.Lays r ls)
    (hnodes : t'.nodes.toList.map Parameter.core = t.nodes.toList.map Parameter.core)
    (hextents : t'.initial.map Link.extent = t.initial.map Link.extent) : t'.Lays r ls := by
  have hcore : (nodesOf r t'.nodes.toList).map Parameter.core =
      (nodesOf r t.nodes.toList).map Parameter.core := by
    rw [← nodesOf_map_core, hnodes, nodesOf_map_core]
  refine ⟨?_, fun k => ?_, fun k p hp => ?_⟩
  · obtain ⟨c, hc, hsize⟩ := h.size
    have hextent := congrArg (·[r]?) hextents
    simp only [Array.getElem?_map, hc, Option.map_some] at hextent
    obtain ⟨c', hc', heq⟩ := Option.map_eq_some_iff.1 hextent
    obtain ⟨hwords, hobjects⟩ := Prod.mk.inj heq
    refine ⟨c', hc', fun k => ?_⟩
    rw [← hsize k]
    cases k with
    | words => exact hwords
    | objects => exact hobjects
  · rw [← k.leafSpots_map_core, hcore, k.leafSpots_map_core, h.leaves]
  · have hmem := List.mem_map_of_mem (f := Parameter.core) hp
    rw [hcore] at hmem
    obtain ⟨q, hq, heq⟩ := List.mem_map.1 hmem
    have hslice : k.slice p = k.slice q := by
      have hboth := congrArg k.slice heq
      cases k <;> exact hboth.symm
    rw [hslice]
    exact h.stop_le k q hq

namespace Growth

/-- All nodes belong to roots that were numbered. -/
def Rooted (g : Growth) : Prop := ∀ p ∈ g.nodes.toList, p.root < g.initial.size

/-- From one tree to another were added nodes of a root with the given leaves, from some contents
on. -/
structure LaysOn (g : Growth) (root : Nat) (ls : List Tile) (before after : Contents)
    (g' : Growth) : Prop where
  size : ∀ k : Storage, k.size after = k.size before + k.total ls
  leaves : ∀ k : Storage, k.leafSpots (nodesOf root (g'.nodes.toList.drop g.nodes.size)) =
    k.spots ls (k.size before)
  stop_le : ∀ k : Storage, ∀ p ∈ nodesOf root (g'.nodes.toList.drop g.nodes.size),
    (k.slice p).stop ≤ k.size after

/-- From one tree to another roots were added that have room for their leaves. -/
structure Founds (g g' : Growth) : Prop where
  initial : ∀ r < g.initial.size, g'.initial[r]? = g.initial[r]?
  laid : ∀ r, g.initial.size ≤ r → r < g'.initial.size → ∃ ls, g'.tree.Lays r ls

variable {g g' g'' : Growth} {params params' : List Handle} {entries entries' : List StateEntry}
  {R S : Nat → Prop} {root : Nat} {ls ls' : List Tile} {before between after : Contents}

lemma mem_drop_of_grown (hg : Grown g params entries R g') {p : Parameter}
    (hp : p ∈ g'.nodes.toList.drop g.nodes.size) :
    R p.root ∨ g.initial.size ≤ p.root ∧ p.root < g'.initial.size := by
  obtain ⟨i, hi⟩ := List.mem_iff_getElem?.1 hp
  rw [List.getElem?_drop, Array.getElem?_toList] at hi
  exact hg.root _ p (Nat.le_add_right ..) hi

lemma Rooted.grown (h : g.Rooted) (hg : Grown g params entries R g')
    (hR : ∀ r, R r → r < g.initial.size) : g'.Rooted := by
  have hsize := hg.size_initial
  intro p hp
  rw [hg.toList_eq] at hp
  rcases List.mem_append.1 hp with hp | hp
  · exact Nat.lt_of_lt_of_le (h p hp) hsize
  · rcases mem_drop_of_grown hg hp with hp | hp
    · exact Nat.lt_of_lt_of_le (hR _ hp) hsize
    · exact hp.2

/-- The nodes of a root stay if nodes of other roots are added. -/
lemma nodesOf_grown (hg : Grown g params entries R g') {r : Nat} (hr : r < g.initial.size)
    (hR : ¬R r) : nodesOf r g'.nodes.toList = nodesOf r g.nodes.toList := by
  have hnone : ∀ p ∈ g'.nodes.toList.drop g.nodes.size, p.root ≠ r := by
    rintro p hp rfl
    exact (mem_drop_of_grown hg hp).elim hR fun h => by omega
  rw [hg.toList_eq, nodesOf_append, nodesOf_eq_nil hnone, List.append_nil]

lemma lays_grown (hlays : g.tree.Lays root ls) (hg : Grown g params entries R g')
    (hfounds : Founds g g') (hR : ¬R root) : g'.tree.Lays root ls := by
  obtain ⟨c, hc, hsize⟩ := hlays.size
  have hroot : root < g.initial.size := (Array.getElem?_eq_some_iff.1 hc).1
  have hnodes : nodesOf root g'.tree.nodes.toList = nodesOf root g.tree.nodes.toList :=
    nodesOf_grown hg hroot hR
  refine ⟨⟨c, (hfounds.initial root hroot).trans hc, hsize⟩, ?_, ?_⟩
  · rw [hnodes]
    exact hlays.leaves
  · rw [hnodes]
    exact hlays.stop_le

namespace Founds

lemma refl (g : Growth) : Founds g g where
  initial _ _ := rfl
  laid r hlow hhigh := by omega

lemma trans (h : Founds g g') (hg : Grown g params entries R g')
    (hg' : Grown g' params' entries' S g'') (h' : Founds g' g'')
    (hS : ∀ r, S r → r < g.initial.size) : Founds g g'' where
  initial r hr := (h'.initial r (Nat.lt_of_lt_of_le hr hg.size_initial)).trans (h.initial r hr)
  laid r hlow hhigh := by
    by_cases hr : r < g'.initial.size
    · obtain ⟨ls, hlays⟩ := h.laid r hlow hr
      exact ⟨ls, lays_grown hlays hg' h' fun hSr => by have := hS r hSr; omega⟩
    · exact h'.laid r (Nat.le_of_not_lt hr) hhigh

end Founds

/-- What is added in two parts is added as a whole. -/
lemma LaysOn.trans (h : LaysOn g root ls before between g') (hg : Grown g params entries R g')
    (hg' : Grown g' params' entries' S g'') (h' : LaysOn g' root ls' between after g'') :
    LaysOn g root (ls ++ ls') before after g'' where
  size k := by
    rw [h'.size, h.size, k.total_append]
    omega
  leaves k := by
    rw [hg.drop_eq hg', nodesOf_append, k.leafSpots_append, h.leaves, h'.leaves, k.spots_append,
      h.size]
  stop_le k p hp := by
    rw [hg.drop_eq hg', nodesOf_append] at hp
    rcases List.mem_append.1 hp with hp | hp
    · have := h.stop_le k p hp
      have := h'.size k
      omega
    · exact h'.stop_le k p hp

/-! ### Nodes and roots -/

lemma modify_append_cons {α : Type} (front : List α) (a : α) (rest : List α) (f : α → α) :
    (front ++ a :: rest).modify front.length f = front ++ f a :: rest := by
  induction front with
  | nil => rfl
  | cons b front ih => exact congrArg (b :: ·) ih

/-- A node whose place is filled stands before what was added under it. -/
lemma exists_finish {node : Node} {top : Option Handle} {flags : UInt32} (members : List Handle)
    (hg : Grown (reserve node root top flags g).2 [] entries R g') (before after : Contents) :
    ∃ q q' rest, rest = g'.nodes.toList.drop (reserve node root top flags g).2.nodes.size ∧
      g'.nodes.toList = g.nodes.toList ++ q :: rest ∧
      (finish ⟨g.nodes.size⟩ node members entries before after g').2.nodes.toList =
        g.nodes.toList ++ q' :: rest ∧
      q.root = root ∧ q'.root = root ∧ q'.node = node ∧
      ∀ k : Storage, k.slice q' = ⟨k.size before, k.size after - k.size before⟩ := by
  have hpush := hg.toList_eq
  obtain ⟨q, hq, hroot, hnode⟩ : ∃ q : Parameter,
      (reserve node root top flags g).2.nodes = g.nodes.push q ∧ q.root = root ∧ q.node = node :=
    ⟨_, rfl, rfl, rfl⟩
  rw [show (reserve node root top flags g).2.nodes.toList = g.nodes.toList ++ [q] by
    rw [hq, Array.toList_push], List.append_assoc, List.singleton_append] at hpush
  let fill : Parameter → Parameter := fun p => { p with
    members, bytes := sizeOfNode node (members.map g'.sizeAt), states := entries
    words := ⟨before.words.size, after.words.size - before.words.size⟩
    objects := ⟨before.objects.size, after.objects.size - before.objects.size⟩ }
  have hfinish : (finish ⟨g.nodes.size⟩ node members entries before after g').2.nodes =
      g'.nodes.modify g.nodes.size fill := rfl
  obtain ⟨rest, hrest⟩ : ∃ rest,
      rest = g'.nodes.toList.drop (reserve node root top flags g).2.nodes.size := ⟨_, rfl⟩
  rw [← hrest] at hpush
  refine ⟨q, fill q, rest, hrest, hpush, ?_, hroot, hroot, hnode, fun k => by cases k <;> rfl⟩
  rw [hfinish, Array.toList_modify, hpush]
  exact modify_append_cons g.nodes.toList q rest fill

/-- What was added under a node keeps its roots when the place of the node is filled. -/
lemma Founds.finish {node : Node} {top : Option Handle} {flags : UInt32} {members : List Handle}
    (hroot : root < g.initial.size)
    (hg : Grown (reserve node root top flags g).2 [] entries R g')
    (h : Founds (reserve node root top flags g).2 g') :
    Founds g (finish ⟨g.nodes.size⟩ node members entries before after g').2 where
  initial := h.initial
  laid r hlow hhigh := by
    obtain ⟨ls, hlays⟩ := h.laid r hlow hhigh
    obtain ⟨q, q', rest, -, hnodes, hnodes', hq, hq', -⟩ :=
      exists_finish members hg before after
    have hne : root ≠ r := by omega
    have hsame : nodesOf r
        (Growth.finish ⟨g.nodes.size⟩ node members entries before after g').2.nodes.toList =
        nodesOf r g'.nodes.toList := by
      rw [hnodes, hnodes', nodesOf_append, nodesOf_append, nodesOf, nodesOf, nodesOf,
        List.filter_cons_of_neg (by simpa [hq'] using hne),
        List.filter_cons_of_neg (by simpa [hq] using hne)]
    refine ⟨ls, hlays.size, fun k => ?_, fun k p hp => hlays.stop_le k p ?_⟩
    · exact (congrArg k.leafSpots hsame).trans (hlays.leaves k)
    · exact hsame ▸ hp

/-- The place of a node with parts is filled. -/
lemma LaysOn.finish {node : Node} {top : Option Handle} {flags : UInt32} {members : List Handle}
    (hg : Grown (reserve node root top flags g).2 [] entries R g') (hnode : node.isLeaf = false)
    (h : LaysOn (reserve node root top flags g).2 root ls before after g') :
    LaysOn g root ls before after
      (finish ⟨g.nodes.size⟩ node members entries before after g').2 := by
  obtain ⟨q, q', rest, rfl, -, hnodes, -, hq', hnode', hslice⟩ :=
    exists_finish members hg before after
  have hdrop : nodesOf root ((Growth.finish ⟨g.nodes.size⟩ node members entries before after
      g').2.nodes.toList.drop g.nodes.size) =
      q' :: nodesOf root (g'.nodes.toList.drop (reserve node root top flags g).2.nodes.size) := by
    rw [hnodes, ← Array.length_toList, List.drop_left, nodesOf,
      List.filter_cons_of_pos (by simpa using hq')]
    rfl
  refine ⟨h.size, fun k => ?_, fun k p hp => ?_⟩
  · rw [hdrop, Storage.leafSpots, List.filter_cons_of_neg (by rw [hnode', hnode]; decide)]
    exact h.leaves k
  · rw [hdrop] at hp
    rcases List.mem_cons.1 hp with rfl | hp
    · rw [hslice, Slice.stop, h.size]
      dsimp only
      omega
    · exact h.stop_le k p hp

/-- The place of a leaf is filled. -/
lemma LaysOn.leaf {node : Node} {top : Option Handle} {flags : UInt32} {l : Tile}
    (hroot : root < g.initial.size)
    (hg : Grown (reserve node root top flags g).2 [] entries (fun _ => False) g')
    (hnode : node.isLeaf = true) (hshape : l.shape = node.decl.shape)
    (hsize : ∀ k : Storage, k.size after = k.size before + k.need l) :
    LaysOn g root [l] before after
      (Growth.finish ⟨g.nodes.size⟩ node [] entries before after g').2 := by
  obtain ⟨q, q', rest, rfl, -, hnodes, -, hq', hnode', hslice⟩ :=
    exists_finish [] hg before after
  have hrest : nodesOf root
      (g'.nodes.toList.drop (reserve node root top flags g).2.nodes.size) = [] := by
    refine nodesOf_eq_nil fun p hp heq => ?_
    rcases mem_drop_of_grown hg hp with h | ⟨hlow, -⟩
    · exact h
    · have hlow : g.initial.size ≤ p.root := hlow
      omega
  have hdrop : nodesOf root ((Growth.finish ⟨g.nodes.size⟩ node [] entries before after
      g').2.nodes.toList.drop g.nodes.size) = [q'] := by
    rw [hnodes, ← Array.length_toList, List.drop_left, nodesOf,
      List.filter_cons_of_pos (by simpa using hq')]
    exact congrArg (q' :: ·) hrest
  have hslice' : ∀ k : Storage, k.slice q' = ⟨k.size before, k.need l⟩ := fun k => by
    rw [hslice, hsize, Nat.add_sub_cancel_left]
  refine ⟨fun k => by rw [hsize]; rfl, fun k => ?_, fun k p hp => ?_⟩
  · rw [hdrop, Storage.leafSpots, List.filter_cons_of_pos (by rw [hnode', hnode])]
    simp only [List.filter_nil, List.map_cons, List.map_nil, Parameter.decl, hnode', hslice',
      Storage.spots, hshape]
  · rw [hdrop] at hp
    obtain rfl := List.mem_singleton.1 hp
    rw [hslice', hsize]
    exact Nat.le_refl _

lemma exists_head_finish {node : Node} {top : Option Handle} {flags : UInt32}
    {members : List Handle} (hg : Grown (reserve node root top flags g).2 [] entries R g') :
    ∃ p, (finish ⟨g.nodes.size⟩ node members entries before after g').2.nodes[g.nodes.size]? =
      some p ∧ p.node = node ∧ p.root = root :=
  ⟨_, nodes_finish_self entries members before after hg, rfl, rfl⟩

/-- From one tree to another a node of a root was added, with all that is under it. -/
structure AddsNode (g : Growth) (root : Nat) (node : Node) (before after : Contents)
    (g' : Growth) : Prop where
  lays : LaysOn g root node.tiles before after g'
  founds : Founds g g'
  head : ∃ p, g'.nodes[g.nodes.size]? = some p ∧ p.node = node ∧ p.root = root

/-- A root that was numbered has its node added and its contents set. -/
lemma Founds.newRoot {contents : Contents} (hrooted : g.Rooted)
    (hg : Grown (newRoot g).2 params entries R g') (hfounds : Founds (newRoot g).2 g')
    (hlays : LaysOn (newRoot g).2 g.initial.size ls {} contents g') :
    Founds g (setRoot g.initial.size contents g').2 ∧
      (setRoot g.initial.size contents g').2.tree.Lays g.initial.size ls := by
  have hsize := hg.size_initial
  have hnumbered := size_initial_newRoot g
  have hset : ∀ r, (setRoot g.initial.size contents g').2.initial[r]? =
      if g.initial.size = r then some contents else g'.initial[r]? := by
    intro r
    by_cases hr : g.initial.size = r
    · rw [if_pos hr, ← hr]
      exact Array.getElem?_setIfInBounds_self_of_lt (by omega)
    · rw [if_neg hr]
      exact Array.getElem?_setIfInBounds_ne hr
  have hnew : (setRoot g.initial.size contents g').2.tree.Lays g.initial.size ls := by
    -- No node that was there before is under the new root.
    have hnodes : nodesOf g.initial.size g'.nodes.toList =
        nodesOf g.initial.size (g'.nodes.toList.drop g.nodes.size) := by
      have hsplit : g'.nodes.toList = g.nodes.toList ++ g'.nodes.toList.drop g.nodes.size :=
        hg.toList_eq
      conv_lhs => rw [hsplit, nodesOf_append,
        nodesOf_eq_nil fun p hp => Nat.ne_of_lt (hrooted p hp), List.nil_append]
    refine ⟨⟨contents, by rw [tree, hset, if_pos rfl], fun k => ?_⟩, fun k => ?_, fun k p hp => ?_⟩
    · rw [hlays.size k]
      cases k <;> exact Nat.zero_add _
    · refine (congrArg k.leafSpots hnodes).trans ((hlays.leaves k).trans ?_)
      cases k <;> rfl
    · have hle := hlays.stop_le k p (hnodes ▸ hp)
      rw [hlays.size k] at hle
      cases k <;> exact Nat.le_trans hle (Nat.le_of_eq (Nat.zero_add _))
  refine ⟨⟨fun r hr => ?_, fun r hlow hhigh => ?_⟩, hnew⟩
  · rw [hset, if_neg (by omega), hfounds.initial r (by omega)]
    exact Array.getElem?_push_lt hr ▸ (Array.getElem?_eq_getElem hr).symm
  · by_cases hr : g.initial.size = r
    · exact ⟨ls, hr ▸ hnew⟩
    · have hhigh : r < g'.initial.size := by
        rwa [show (setRoot g.initial.size contents g').2.initial.size = g'.initial.size from
          Array.size_setIfInBounds ..] at hhigh
      obtain ⟨ls', hlays'⟩ := hfounds.laid r (by omega) hhigh
      obtain ⟨c, hc, hsize'⟩ := hlays'.size
      exact ⟨ls', ⟨c, by rw [tree, hset, if_neg hr]; exact hc, hsize'⟩, hlays'.leaves,
        hlays'.stop_le⟩

/-! ### Adding nodes -/

lemma rooted_reserve (hg : g.Rooted) {node : Node} {top : Option Handle} {flags : UInt32}
    (hroot : root < g.initial.size) : (reserve node root top flags g).2.Rooted := by
  intro p hp
  rcases List.mem_append.1 (Array.toList_push ▸ hp) with hp | hp
  · exact hg p hp
  · obtain rfl := List.mem_singleton.1 hp
    exact hroot

lemma rooted_newRoot (hg : g.Rooted) : (newRoot g).2.Rooted :=
  fun p hp => Nat.lt_trans (hg p hp) (lt_size_newRoot g)

mutual

lemma addsNode_addNode (root : Nat) (top : Option Handle) (flags : UInt32) (node : Node)
    (before : Contents) (g : Growth) (hg : g.Rooted) (hroot : root < g.initial.size) :
    AddsNode g root node before (addNode root top flags node before g).1.2
      (addNode root top flags node before g).2 := by
  have hrefl : Grown (reserve node root top flags g).2 [] [] (fun _ => False)
      (reserve node root top flags g).2 := .refl _ _
  cases node with
  | array d elements =>
    have h := laysOn_addNodes root (top.getD ⟨g.nodes.size⟩) flags elements before
      (reserve (.array d elements) root top flags g).2 (rooted_reserve hg hroot) hroot
    have hgrown := grown_addNodes root (top.getD ⟨g.nodes.size⟩) flags elements before
      (reserve (.array d elements) root top flags g).2
    rw [addNode]
    exact ⟨h.1.finish hgrown.1 rfl, h.2.finish hroot hgrown.1, exists_head_finish hgrown.1⟩
  | struct d fields =>
    have h := laysOn_addNodes root (top.getD ⟨g.nodes.size⟩) flags fields before
      (reserve (.struct d fields) root top flags g).2 (rooted_reserve hg hroot) hroot
    have hgrown := grown_addNodes root (top.getD ⟨g.nodes.size⟩) flags fields before
      (reserve (.struct d fields) root top flags g).2
    rw [addNode]
    exact ⟨h.1.finish hgrown.1 rfl, h.2.finish hroot hgrown.1, exists_head_finish hgrown.1⟩
  | words d ws =>
    rw [addNode]
    refine ⟨LaysOn.leaf hroot hrefl rfl rfl fun k => ?_, (Founds.refl _).finish hroot hrefl,
      exists_head_finish hrefl⟩
    cases k
    · exact Array.size_append
    · rfl
  | object d id =>
    let reserved := (reserve (.object d id) root top flags g).2
    have hawait := grown_await root before.objects.size id reserved fun _ => False
    rw [addNode]
    refine ⟨LaysOn.leaf hroot hawait rfl rfl fun k => ?_, Founds.finish hroot hawait ?_,
      exists_head_finish hawait⟩
    · cases k
      · rfl
      · exact Array.size_push ..
    · exact ⟨fun _ _ => rfl, fun r hlow hhigh => absurd hhigh (Nat.not_lt.2 hlow)⟩
  | sampler d states =>
    have h := founds_addStates states (reserve (.sampler d states) root top flags g).2
      (rooted_reserve hg hroot)
    have hgrown := grown_addStates states (reserve (.sampler d states) root top flags g).2
    rw [addNode]
    exact ⟨.leaf hroot hgrown rfl rfl fun k => by cases k <;> rfl, h.finish hroot hgrown,
      exists_head_finish hgrown⟩
  | unsupported d =>
    rw [addNode]
    exact ⟨.leaf hroot hrefl rfl rfl fun k => by cases k <;> rfl,
      (Founds.refl _).finish hroot hrefl, exists_head_finish hrefl⟩

lemma laysOn_addNodes (root : Nat) (top : Handle) (flags : UInt32) (nodes : List Node)
    (before : Contents) (g : Growth) (hg : g.Rooted) (hroot : root < g.initial.size) :
    LaysOn g root (Node.tilesOf nodes) before (addNodes root top flags nodes before g).1.2
        (addNodes root top flags nodes before g).2 ∧
      Founds g (addNodes root top flags nodes before g).2 := by
  cases nodes with
  | nil =>
    have hnone : g.nodes.toList.drop g.nodes.size = [] := by simp
    refine ⟨⟨fun k => rfl, fun k => ?_, fun k p hp => ?_⟩, .refl g⟩
    · exact congrArg (fun ps => k.leafSpots (nodesOf root ps)) hnone
    · rw [show (addNodes root top flags [] before g).2.nodes.toList.drop g.nodes.size = []
        from hnone] at hp
      cases hp
  | cons node rest =>
    let added := addNode root (some top) flags node before g
    have hgrown := (grown_addNode root (some top) flags node before g).1
    have hfirst := addsNode_addNode root (some top) flags node before g hg hroot
    have hgrown' := (grown_addNodes root top flags rest added.1.2 added.2).1
    have hroot' : root < added.2.initial.size := Nat.lt_of_lt_of_le hroot hgrown.size_initial
    have hrest := laysOn_addNodes root top flags rest added.1.2 added.2
      (hg.grown hgrown fun r hr => hr ▸ hroot) hroot'
    rw [addNodes]
    exact ⟨hfirst.lays.trans hgrown hgrown' hrest.1,
      hfirst.founds.trans hgrown hgrown' hrest.2 fun r hr => hr ▸ hroot⟩

lemma founds_addStates (states : List (Assignment Node)) (g : Growth) (hg : g.Rooted) :
    Founds g (addStates states g).2 := by
  cases states with
  | nil => exact .refl g
  | cons state rest =>
    obtain ⟨operation, index, value⟩ := state
    let added := addNode g.initial.size none 0 value {} (newRoot g).2
    have hvalue := grown_addNode g.initial.size none 0 value {} (newRoot g).2
    have hadds := addsNode_addNode g.initial.size none 0 value {} (newRoot g).2 (rooted_newRoot hg)
      (lt_size_newRoot g)
    have hfirst := (Founds.newRoot hg hvalue.1 hadds.founds hadds.lays).1
    have hentry := hvalue.1.entry operation index added.1.2 hvalue.2
    have hrest := founds_addStates rest (setRoot g.initial.size added.1.2 added.2).2
      (hg.grown hentry fun _ h => h.elim)
    rw [addStates]
    exact hfirst.trans hentry (grown_addStates rest _) hrest fun _ h => h.elim

end

end Growth

end ShaderEffect
