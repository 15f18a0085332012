import ShaderEffect.Proofs.Link.Growth
import ShaderEffect.Proofs.Storage

/-!
# Nesting

Nodes of a root nest like what they address: all are under one node, and if two of them address a
place in common, one is under the other (`Tree.Nests`). When a tree grows this holds of each root
that is added.
-/

namespace ShaderEffect

/-- A parameter, or a member or element of it at any depth. -/
inductive Tree.Under (t : Tree) (h : Handle) : Handle → Prop
  | refl : Tree.Under t h h
  | member {i j : Handle} {p : Parameter} : Tree.Under t h i → t.node? i = some p →
      j ∈ p.members → Tree.Under t h j

namespace Tree

variable {t t' : Tree}

lemma Under.head {h i j : Handle} {p : Parameter} (hp : t.node? h = some p) (hi : i ∈ p.members)
    (hj : t.Under i j) : t.Under h j := by
  induction hj with
  | refl => exact .member .refl hp hi
  | member _ hq hmem ih => exact .member ih hq hmem

/-- What is under a node stays under it if nodes only gain members. -/
lemma Under.mono (hmembers : ∀ i p, t.node? i = some p →
    ∃ p', t'.node? i = some p' ∧ p.members ⊆ p'.members) {h j : Handle} (hj : t.Under h j) :
    t'.Under h j := by
  induction hj with
  | refl => exact .refl
  | member _ hp hmem ih =>
    obtain ⟨p', hp', hsub⟩ := hmembers _ _ hp
    exact .member ih hp' (hsub hmem)

/-- The nodes of a root from a place on have the same flags and belong to the same node, each is
under one of some nodes, and they nest like what they address. -/
structure Nests (t : Tree) (start r : Nat) (flags : UInt32) (top : Handle) (hs : List Handle) :
    Prop where
  flags_eq : ∀ h p, start ≤ h.index → t.node? h = some p → p.root = r → p.flags = flags
  top_eq : ∀ h p, start ≤ h.index → t.node? h = some p → p.root = r → p.top = top
  under : ∀ h p, start ≤ h.index → t.node? h = some p → p.root = r → ∃ i ∈ hs, t.Under i h
  nested : ∀ h h' p p', start ≤ h.index → start ≤ h'.index → t.node? h = some p →
    t.node? h' = some p' → p.root = r → p'.root = r → ∀ (k : Storage) (j : Nat),
    (k.slice p).Has j → (k.slice p').Has j → t.Under h h' ∨ t.Under h' h

/-- Nodes of other roots do not matter, nor what is no matter of members, flags and slices. -/
lemma Nests.congr {start start' r : Nat} {flags : UInt32} {top : Handle} {hs : List Handle}
    (h : t.Nests start r flags top hs)
    (hmembers : ∀ i p, t.node? i = some p → ∃ p', t'.node? i = some p' ∧ p.members ⊆ p'.members)
    (hnodes : ∀ i p', start' ≤ i.index → t'.node? i = some p' → p'.root = r → start ≤ i.index ∧
      ∃ p, t.node? i = some p ∧ p.root = r ∧ p.flags = p'.flags ∧ p.top = p'.top ∧
        ∀ k : Storage, k.slice p = k.slice p') : t'.Nests start' r flags top hs where
  flags_eq i p' hi hp' hr := by
    obtain ⟨hle, p, hp, hroot, hflags, -⟩ := hnodes i p' hi hp' hr
    exact hflags ▸ h.flags_eq i p hle hp hroot
  top_eq i p' hi hp' hr := by
    obtain ⟨hle, p, hp, hroot, -, htop, -⟩ := hnodes i p' hi hp' hr
    exact htop ▸ h.top_eq i p hle hp hroot
  under i p' hi hp' hr := by
    obtain ⟨hle, p, hp, hroot, -, -, -⟩ := hnodes i p' hi hp' hr
    exact (h.under i p hle hp hroot).imp fun _ hj => ⟨hj.1, hj.2.mono hmembers⟩
  nested i i' p' q' hi hi' hp' hq' hr hr' k j hj hj' := by
    obtain ⟨hle, p, hp, hroot, -, -, hslice⟩ := hnodes i p' hi hp' hr
    obtain ⟨hle', q, hq, hroot', -, -, hslice'⟩ := hnodes i' q' hi' hq' hr'
    rw [← hslice] at hj
    rw [← hslice'] at hj'
    exact (h.nested i i' p q hle hle' hp hq hroot hroot' k j hj hj').imp (·.mono hmembers)
      (·.mono hmembers)

end Tree

namespace Growth

/-- The tree grown so far. -/
def tree (g : Growth) : Tree := { nodes := g.nodes, initial := g.initial }

/-- From one tree to another were added nodes of a root, under some handles, from some contents
on. -/
structure NestsOn (g : Growth) (root : Nat) (flags : UInt32) (top : Handle) (hs : List Handle)
    (before after : Contents) (g' : Growth) : Prop
    extends g'.tree.Nests g.nodes.size root flags top hs where
  size_le : ∀ k : Storage, k.size before ≤ k.size after
  within : ∀ h p, g.nodes.size ≤ h.index → g'.tree.node? h = some p → p.root = root →
    ∀ k : Storage, k.size before ≤ (k.slice p).start ∧ (k.slice p).stop ≤ k.size after

/-- A handle is that of a node with the flag of annotations. -/
def IsNote (g : Growth) (h : Handle) : Prop :=
  ∃ p, g.tree.node? h = some p ∧ p.flags = annotationFlag

/-- From one tree to another roots were added, each with all its nodes under the one they belong to,
and nodes with annotations that are flagged as such. -/
structure Heads (g g' : Growth) : Prop where
  roots : ∀ r, g.initial.size ≤ r → r < g'.initial.size →
    ∃ flags top, g'.tree.Nests g.nodes.size r flags top [top]
  notes : ∀ h p, g.nodes.size ≤ h.index → g'.tree.node? h = some p →
    ∀ h' ∈ p.annotations, g'.IsNote h'

variable {g g' g'' : Growth} {params params' : List Handle} {entries entries' : List StateEntry}
  {R S : Nat → Prop} {root : Nat} {flags : UInt32} {top : Handle} {hs hs' : List Handle}
  {before between after : Contents}

lemma Grown.node?_eq (hg : Grown g params entries R g') {h : Handle}
    (hh : h.index < g.nodes.size) : g'.tree.node? h = g.tree.node? h :=
  hg.nodes h.index hh

lemma Grown.node?_of_some (hg : Grown g params entries R g') {h : Handle} {p : Parameter}
    (hp : g.tree.node? h = some p) : g'.tree.node? h = some p :=
  (hg.node?_eq (Array.getElem?_eq_some_iff.1 hp).1).trans hp

lemma Grown.node?_or_le (hg : Grown g params entries R g') {h : Handle} {p : Parameter}
    (hp : g'.tree.node? h = some p) : g.tree.node? h = some p ∨ g.nodes.size ≤ h.index :=
  hg.nodes_or_le hp

/-- Nodes that were there keep their members. -/
lemma Grown.members_subset (hg : Grown g params entries R g') (i : Handle) (p : Parameter)
    (hp : g.tree.node? i = some p) : ∃ p', g'.tree.node? i = some p' ∧ p.members ⊆ p'.members :=
  ⟨p, hg.node?_of_some hp, List.Subset.refl _⟩

lemma IsNote.grown (hg : Grown g params entries R g') {h : Handle} (hh : g.IsNote h) :
    g'.IsNote h := by
  obtain ⟨p, hp, hflags⟩ := hh
  exact ⟨p, hg.node?_of_some hp, hflags⟩

/-- Nodes of a root nest as before if nodes of other roots are added. -/
lemma nests_grown {start r : Nat} (h : g.tree.Nests start r flags top hs)
    (hg : Grown g params entries R g') (hr : r < g.initial.size) (hR : ¬R r) :
    g'.tree.Nests start r flags top hs :=
  h.congr hg.members_subset fun i p' hi hp' hroot => by
    rcases hg.node?_or_le hp' with hp | hle
    · exact ⟨hi, p', hp, hroot, rfl, rfl, fun _ => rfl⟩
    · rcases hg.root i.index p' hle hp' with hp' | hp'
      · exact absurd (hroot ▸ hp') hR
      · omega

namespace NestsOn

/-- Nodes of other roots were added. -/
lemma none (hg : Grown g params entries R g') (hR : ∀ r, ¬R r) (hroot : root < g.initial.size)
    (hsize : ∀ k : Storage, k.size before ≤ k.size after) :
    NestsOn g root flags top [] before after g' := by
  have hnone : ∀ (h : Handle) p, g.nodes.size ≤ h.index → g'.tree.node? h = some p →
      p.root ≠ root := by
    rintro h p hh hp rfl
    rcases hg.root h.index p hh hp with hp | hp
    · exact hR _ hp
    · omega
  exact {
    flags_eq := fun h p hh hp hr => absurd hr (hnone h p hh hp)
    top_eq := fun h p hh hp hr => absurd hr (hnone h p hh hp)
    under := fun h p hh hp hr => absurd hr (hnone h p hh hp)
    nested := fun h _ p _ hh _ hp _ hr => absurd hr (hnone h p hh hp)
    size_le := hsize
    within := fun h p hh hp hr => absurd hr (hnone h p hh hp) }

/-- What is added in two parts is added as a whole: the parts have nothing in common. -/
lemma trans (h : NestsOn g root flags top hs before between g')
    (hg : Grown g' params entries R g'') (h' : NestsOn g' root flags top hs' between after g'') :
    NestsOn g root flags top (hs ++ hs') before after g'' := by
  have hmembers := hg.members_subset
  have hapart : ∀ {i i' : Handle} {p p' : Parameter}, g.nodes.size ≤ i.index →
      g'.tree.node? i = some p → g'.nodes.size ≤ i'.index → g''.tree.node? i' = some p' →
      p.root = root → p'.root = root → ∀ (k : Storage) (j : Nat),
      (k.slice p).Has j → ¬(k.slice p').Has j := by
    intro i i' p p' hi hp hi' hp' hr hr' k j hj hj'
    have hstop := (h.within i p hi hp hr k).2
    have hstart := (h'.within i' p' hi' hp' hr' k).1
    have := hj.2
    have := hj'.1
    omega
  refine ⟨⟨fun i p hi hp hr => ?_, fun i p hi hp hr => ?_, fun i p hi hp hr => ?_, ?_⟩, ?_,
    fun i p hi hp hr k => ?_⟩
  · rcases hg.node?_or_le hp with hold | hnew
    · exact h.flags_eq i p hi hold hr
    · exact h'.flags_eq i p hnew hp hr
  · rcases hg.node?_or_le hp with hold | hnew
    · exact h.top_eq i p hi hold hr
    · exact h'.top_eq i p hnew hp hr
  · rcases hg.node?_or_le hp with hold | hnew
    · obtain ⟨j, hj, hunder⟩ := h.under i p hi hold hr
      exact ⟨j, List.mem_append_left _ hj, hunder.mono hmembers⟩
    · obtain ⟨j, hj, hunder⟩ := h'.under i p hnew hp hr
      exact ⟨j, List.mem_append_right _ hj, hunder⟩
  · intro i i' p p' hi hi' hp hp' hr hr' k j hj hj'
    rcases hg.node?_or_le hp with hold | hnew <;> rcases hg.node?_or_le hp' with hold' | hnew'
    · exact (h.nested i i' p p' hi hi' hold hold' hr hr' k j hj hj').imp (·.mono hmembers)
        (·.mono hmembers)
    · exact absurd hj' (hapart hi hold hnew' hp' hr hr' k j hj)
    · exact absurd hj (hapart hi' hold' hnew hp hr' hr k j hj')
    · exact h'.nested i i' p p' hnew hnew' hp hp' hr hr' k j hj hj'
  · exact fun k => Nat.le_trans (h.size_le k) (h'.size_le k)
  · have hle := h.size_le k
    have hle' := h'.size_le k
    rcases hg.node?_or_le hp with hold | hnew
    · have := h.within i p hi hold hr k
      omega
    · have := h'.within i p hnew hp hr k
      omega

end NestsOn

namespace Heads

lemma refl (g : Growth) : Heads g g where
  roots r hlow hhigh := by omega
  notes h p hh hp := by
    have hlt : h.index < g.nodes.size := (Array.getElem?_eq_some_iff.1 hp).1
    omega

lemma trans (h : Heads g g') (hg : Grown g params entries R g')
    (hg' : Grown g' params' entries' S g'') (h' : Heads g' g'')
    (hR : ∀ r, R r → r < g.initial.size) (hS : ∀ r, S r → r < g.initial.size) : Heads g g'' where
  roots r hlow hhigh := by
    by_cases hr : r < g'.initial.size
    · obtain ⟨flags, top, hnests⟩ := h.roots r hlow hr
      exact ⟨flags, top, nests_grown hnests hg' hr fun hSr => by have := hS r hSr; omega⟩
    · obtain ⟨flags, top, hnests⟩ := h'.roots r (Nat.le_of_not_lt hr) hhigh
      refine ⟨flags, top, hnests.congr (fun i p hp => ⟨p, hp, List.Subset.refl _⟩) ?_⟩
      intro i p hi hp hroot
      refine ⟨?_, p, hp, hroot, rfl, rfl, fun _ => rfl⟩
      -- The nodes of the first part are under other roots.
      rcases hg'.node?_or_le hp with hold | hnew
      · rcases hg.root i.index p hi hold with hold | hold
        · have := hR _ hold
          omega
        · omega
      · exact hnew
  notes i p hi hp i' hi' := by
    rcases hg'.node?_or_le hp with hold | hnew
    · exact (h.notes i p hi hold i' hi').grown hg'
    · exact h'.notes i p hnew hp i' hi'

end Heads

/-! ### Nodes and roots -/

lemma slice_filled (g : Growth) (node : Node) (root : Nat) (top : Handle) (flags : UInt32)
    (members : List Handle) (entries : List StateEntry) (before after : Contents) (k : Storage) :
    k.slice (g.filled node root top flags members entries before after) =
      ⟨k.size before, k.size after - k.size before⟩ := by
  cases k <;> rfl

section

variable {node : Node} {top : Option Handle}

/-- What is at the place of a node until it is filled. -/
lemma node?_reserve (hg : Grown (reserve node root top flags g).2 params entries' R g') :
    g'.tree.node? ⟨g.nodes.size⟩ =
      some { node, members := [], annotations := [], flags, bytes := 0
             root, top := top.getD ⟨g.nodes.size⟩, words := ⟨0, 0⟩, objects := ⟨0, 0⟩
             states := [] } :=
  nodes_reserve hg

variable (entries hs before after) in
/-- What the place of a node is filled with. -/
lemma node?_finish_self (hg : Grown (reserve node root top flags g).2 params entries' R g') :
    (finish ⟨g.nodes.size⟩ node hs entries before after g').2.tree.node? ⟨g.nodes.size⟩ =
      some (g'.filled node root (top.getD ⟨g.nodes.size⟩) flags hs entries before after) :=
  nodes_finish_self entries hs before after hg

/-- Other nodes stay when the place of a node is filled. -/
lemma node?_finish_of_ne {i : Handle} (hi : i.index ≠ g.nodes.size) :
    (finish ⟨g.nodes.size⟩ node hs entries before after g').2.tree.node? i = g'.tree.node? i :=
  nodes_finish_of_ne hi

/-- From the place of a node on, there is the node that fills it, and what was added under it. -/
lemma eq_or_node?_of_finish (hg : Grown (reserve node root top flags g).2 params entries' R g')
    {i : Handle} {p : Parameter} (hi : g.nodes.size ≤ i.index)
    (hp : (finish ⟨g.nodes.size⟩ node hs entries before after g').2.tree.node? i = some p) :
    i = ⟨g.nodes.size⟩ ∧
        p = g'.filled node root (top.getD ⟨g.nodes.size⟩) flags hs entries before after ∨
      (reserve node root top flags g).2.nodes.size ≤ i.index ∧ g'.tree.node? i = some p :=
  (eq_or_nodes_of_finish hg hi hp).imp_left fun h => ⟨congrArg Handle.mk h.1, h.2⟩

variable (entries hs before after) in
/-- A node keeps all but what its place is filled with, and loses no member. -/
lemma exists_kept_finish (hg : Grown (reserve node root top flags g).2 params entries' R g')
    {i : Handle} {p : Parameter} (hp : g'.tree.node? i = some p) :
    ∃ p', (finish ⟨g.nodes.size⟩ node hs entries before after g').2.tree.node? i = some p' ∧
      p'.node = p.node ∧ p'.root = p.root ∧ p'.flags = p.flags ∧ p'.top = p.top ∧
      p.members ⊆ p'.members := by
  by_cases hi : i.index = g.nodes.size
  · obtain rfl : i = ⟨g.nodes.size⟩ := congrArg Handle.mk hi
    obtain rfl := Option.some.inj ((node?_reserve hg).symm.trans hp)
    exact ⟨_, node?_finish_self entries hs before after hg, rfl, rfl, rfl, rfl, List.nil_subset _⟩
  · exact ⟨p, (node?_finish_of_ne hi).trans hp, rfl, rfl, rfl, rfl, List.Subset.refl _⟩

variable (entries hs before after) in
lemma members_subset_finish (hg : Grown (reserve node root top flags g).2 params entries' R g')
    (i : Handle) (p : Parameter) (hp : g'.tree.node? i = some p) :
    ∃ p', (finish ⟨g.nodes.size⟩ node hs entries before after g').2.tree.node? i = some p' ∧
      p.members ⊆ p'.members := by
  obtain ⟨p', hp', -, -, -, -, hmembers⟩ := exists_kept_finish entries hs before after hg hp
  exact ⟨p', hp', hmembers⟩

lemma IsNote.finish (hg : Grown (reserve node root top flags g).2 params entries' R g')
    {h : Handle} (hh : g'.IsNote h) :
    (finish ⟨g.nodes.size⟩ node hs entries before after g').2.IsNote h := by
  obtain ⟨p, hp, hflags⟩ := hh
  obtain ⟨p', hp', -, -, hflags', -⟩ := exists_kept_finish entries hs before after hg hp
  exact ⟨p', hp', hflags'.trans hflags⟩

/-- A node whose place is filled has what was added under it for its members. -/
lemma NestsOn.finish (hg : Grown (reserve node root top flags g).2 params entries' R g')
    (h : NestsOn (reserve node root top flags g).2 root flags (top.getD ⟨g.nodes.size⟩) hs before
      after g') :
    NestsOn g root flags (top.getD ⟨g.nodes.size⟩) [⟨g.nodes.size⟩] before after
      (finish ⟨g.nodes.size⟩ node hs entries before after g').2 := by
  have hmono := members_subset_finish entries hs before after hg
  have hunder : ∀ {i : Handle} {p : Parameter}, g.nodes.size ≤ i.index →
      (Growth.finish ⟨g.nodes.size⟩ node hs entries before after g').2.tree.node? i = some p →
      p.root = root → (Growth.finish ⟨g.nodes.size⟩ node hs entries before after g').2.tree.Under
        ⟨g.nodes.size⟩ i := by
    intro i p hle hp hr
    rcases eq_or_node?_of_finish hg hle hp with ⟨rfl, -⟩ | ⟨hle, hp⟩
    · exact .refl
    · obtain ⟨j, hj, hunder⟩ := h.under i p hle hp hr
      exact .head (node?_finish_self entries hs before after hg) hj (hunder.mono hmono)
  refine ⟨⟨fun i p hle hp hr => ?_, fun i p hle hp hr => ?_, fun i p hle hp hr => ?_, ?_⟩,
    h.size_le, fun i p hle hp hr k => ?_⟩
  · rcases eq_or_node?_of_finish hg hle hp with ⟨-, rfl⟩ | ⟨hle, hp⟩
    · rfl
    · exact h.flags_eq i p hle hp hr
  · rcases eq_or_node?_of_finish hg hle hp with ⟨-, rfl⟩ | ⟨hle, hp⟩
    · rfl
    · exact h.top_eq i p hle hp hr
  · exact ⟨_, List.mem_singleton_self _, hunder hle hp hr⟩
  · intro i i' p p' hle hle' hp hp' hr hr' k j hj hj'
    rcases eq_or_node?_of_finish hg hle hp with ⟨rfl, -⟩ | ⟨hlow, hold⟩
    · exact .inl (hunder hle' hp' hr')
    · rcases eq_or_node?_of_finish hg hle' hp' with ⟨rfl, -⟩ | ⟨hlow', hold'⟩
      · exact .inr (hunder hle hp hr)
      · exact (h.nested i i' p p' hlow hlow' hold hold' hr hr' k j hj hj').imp (·.mono hmono)
          (·.mono hmono)
  · rcases eq_or_node?_of_finish hg hle hp with ⟨-, rfl⟩ | ⟨hle, hp⟩
    · have := h.size_le k
      rw [slice_filled, Slice.stop]
      dsimp only
      omega
    · exact h.within i p hle hp hr k

/-- The roots that were added under a node keep their heads when the place of the node is filled. -/
lemma Heads.finish (hroot : root < g.initial.size)
    (hg : Grown (reserve node root top flags g).2 params entries' R g')
    (h : Heads (reserve node root top flags g).2 g') :
    Heads g (finish ⟨g.nodes.size⟩ node hs entries before after g').2 where
  roots r hlow hhigh := by
    obtain ⟨flags', top', hnests⟩ := h.roots r hlow hhigh
    refine ⟨flags', top', hnests.congr (members_subset_finish entries hs before after hg)
      fun i p hi hp hr => ?_⟩
    rcases eq_or_node?_of_finish hg hi hp with ⟨-, rfl⟩ | ⟨hi, hp⟩
    · -- The node is under another root.
      have hr : root = r := hr
      omega
    · exact ⟨hi, p, hp, hr, rfl, rfl, fun _ => rfl⟩
  notes i p hi hp i' hi' := by
    rcases eq_or_node?_of_finish hg hi hp with ⟨-, rfl⟩ | ⟨hi, hp⟩
    · cases hi'
    · exact (h.notes i p hi hp i' hi').finish hg

end

/-- A root that was numbered has its node added and its contents set. -/
lemma Heads.newRoot {contents : Contents}
    (hnests : NestsOn (newRoot g).2 g.initial.size flags top [top] {} contents g')
    (hheads : Heads (newRoot g).2 g') :
    Heads g (setRoot g.initial.size contents g').2 ∧
      (setRoot g.initial.size contents g').2.tree.Nests g.nodes.size g.initial.size flags top
        [top] := by
  have hnumbered := size_initial_newRoot g
  have hsize : (setRoot g.initial.size contents g').2.initial.size = g'.initial.size :=
    Array.size_setIfInBounds ..
  have hsame : ∀ {r flags top}, g'.tree.Nests g.nodes.size r flags top [top] →
      (setRoot g.initial.size contents g').2.tree.Nests g.nodes.size r flags top [top] := fun h =>
    h.congr (fun i p hp => ⟨p, hp, List.Subset.refl _⟩)
      fun i p hi hp hr => ⟨hi, p, hp, hr, rfl, rfl, fun _ => rfl⟩
  refine ⟨⟨fun r hlow hhigh => ?_, hheads.notes⟩, hsame hnests.toNests⟩
  by_cases hr : r = g.initial.size
  · exact ⟨flags, top, hr ▸ hsame hnests.toNests⟩
  · obtain ⟨flags', top', hnests'⟩ := hheads.roots r (by omega) (by omega)
    exact ⟨flags', top', hsame hnests'⟩

/-! ### Adding nodes -/

mutual

lemma nestsOn_addNode (root : Nat) (top : Option Handle) (flags : UInt32) (node : Node)
    (before : Contents) (g : Growth) (hroot : root < g.initial.size) :
    NestsOn g root flags (top.getD ⟨g.nodes.size⟩) [⟨g.nodes.size⟩] before
        (addNode root top flags node before g).1.2 (addNode root top flags node before g).2 ∧
      Heads g (addNode root top flags node before g).2 := by
  have hrefl : Grown (reserve node root top flags g).2 [] [] (fun _ => False)
      (reserve node root top flags g).2 := .refl _ _
  cases node with
  | array d elements =>
    have h := nestsOn_addNodes root (top.getD ⟨g.nodes.size⟩) flags elements before
      (reserve (.array d elements) root top flags g).2 hroot
    have hgrown := (grown_addNodes root (top.getD ⟨g.nodes.size⟩) flags elements before
      (reserve (.array d elements) root top flags g).2).1
    rw [addNode]
    exact ⟨h.1.finish hgrown, h.2.finish hroot hgrown⟩
  | struct d fields =>
    have h := nestsOn_addNodes root (top.getD ⟨g.nodes.size⟩) flags fields before
      (reserve (.struct d fields) root top flags g).2 hroot
    have hgrown := (grown_addNodes root (top.getD ⟨g.nodes.size⟩) flags fields before
      (reserve (.struct d fields) root top flags g).2).1
    rw [addNode]
    exact ⟨h.1.finish hgrown, h.2.finish hroot hgrown⟩
  | words d ws =>
    rw [addNode]
    refine ⟨(NestsOn.none hrefl (fun _ => not_false) hroot fun k => ?_).finish hrefl,
      (Heads.refl _).finish hroot hrefl⟩
    cases k
    · exact Nat.le_trans (Nat.le_add_right ..) (Nat.le_of_eq Array.size_append.symm)
    · exact Nat.le_refl _
  | object d id =>
    let reserved := (reserve (.object d id) root top flags g).2
    have hawait := grown_await root before.objects.size id reserved fun _ => False
    rw [addNode]
    refine ⟨(NestsOn.none hawait (fun _ => not_false) hroot fun k => ?_).finish hawait,
      Heads.finish hroot hawait ?_⟩
    · cases k
      · exact Nat.le_refl _
      · exact Nat.le_trans (Nat.le_succ _) (Nat.le_of_eq (Array.size_push ..).symm)
    · exact ⟨fun r hlow hhigh => absurd hhigh (Nat.not_lt.2 hlow), (Heads.refl reserved).notes⟩
  | sampler d states =>
    have h := heads_addStates states (reserve (.sampler d states) root top flags g).2
    have hgrown := grown_addStates states (reserve (.sampler d states) root top flags g).2
    rw [addNode]
    exact ⟨(NestsOn.none hgrown (fun _ => not_false) hroot fun _ => Nat.le_refl _).finish hgrown,
      h.finish hroot hgrown⟩
  | unsupported d =>
    rw [addNode]
    exact ⟨(NestsOn.none hrefl (fun _ => not_false) hroot fun _ => Nat.le_refl _).finish hrefl,
      (Heads.refl _).finish hroot hrefl⟩

lemma nestsOn_addNodes (root : Nat) (top : Handle) (flags : UInt32) (nodes : List Node)
    (before : Contents) (g : Growth) (hroot : root < g.initial.size) :
    NestsOn g root flags top (addNodes root top flags nodes before g).1.1 before
        (addNodes root top flags nodes before g).1.2
        (addNodes root top flags nodes before g).2 ∧
      Heads g (addNodes root top flags nodes before g).2 := by
  cases nodes with
  | nil =>
    exact ⟨.none (.refl g (fun _ => False)) (fun _ => not_false) hroot fun _ => Nat.le_refl _,
      .refl g⟩
  | cons node rest =>
    let added := addNode root (some top) flags node before g
    have hgrown := (grown_addNode root (some top) flags node before g).1
    have hfirst := nestsOn_addNode root (some top) flags node before g hroot
    have hgrown' := (grown_addNodes root top flags rest added.1.2 added.2).1
    have hrest := nestsOn_addNodes root top flags rest added.1.2 added.2
      (Nat.lt_of_lt_of_le hroot hgrown.size_initial)
    rw [← addNode_handle root (some top) flags node before g] at hfirst
    rw [addNodes]
    exact ⟨hfirst.1.trans hgrown' hrest.1, hfirst.2.trans hgrown hgrown' hrest.2
      (fun r hr => hr ▸ hroot) fun r hr => hr ▸ hroot⟩

lemma heads_addStates (states : List (Assignment Node)) (g : Growth) :
    Heads g (addStates states g).2 := by
  cases states with
  | nil => exact .refl g
  | cons state rest =>
    obtain ⟨operation, index, value⟩ := state
    have hvalue := grown_addNode g.initial.size none 0 value {} (newRoot g).2
    have hadds := nestsOn_addNode g.initial.size none 0 value {} (newRoot g).2
      (lt_size_newRoot g)
    have hfirst := (Heads.newRoot hadds.1 hadds.2).1
    rw [addStates]
    exact hfirst.trans (hvalue.1.entry operation index _ hvalue.2) (grown_addStates rest _)
      (heads_addStates rest _) (fun _ h => h.elim) fun _ h => h.elim

end

end Growth

end ShaderEffect
