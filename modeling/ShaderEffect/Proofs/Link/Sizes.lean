import Mathlib.Algebra.BigOperators.Ring.List
import Mathlib.Algebra.Order.BigOperators.Group.List
import Mathlib.Algebra.Order.Group.Nat
import Mathlib.Algebra.Ring.Nat
import ShaderEffect.Proofs.Link.Parts

/-!
# Sizes of parameters

The size of a parameter in bytes is four for each word and each slot of its leaves, and for each
leaf that keeps nothing in a block (`Node.span`). Sizes are added with saturation, but no value of
an image is so large that this would matter.
-/

namespace ShaderEffect

open Growth (saturatingAdd sizeOfNode)

/-! ### What counts for a size -/

namespace Node

/-- Whether a leaf keeps nothing in a block: a sampler, or an object of a type that is not
stored. -/
def isGap : Node → Bool
  | .sampler .. | .unsupported _ => true
  | _ => false

/-- The number of leaves that keep nothing in a block. -/
def gaps (n : Node) : Nat := n.leafNodes.countP isGap

/-- What leaves count for in a size. -/
def spanOf (leaves : List Node) : Nat :=
  (leaves.flatMap (leafData .words)).length + (leaves.flatMap (leafData .objects)).length +
    leaves.countP isGap

/-- What a value counts for in a size. -/
def span (n : Node) : Nat := spanOf n.leafNodes

lemma span_eq (n : Node) :
    n.span = (n.data .words).length + (n.data .objects).length + n.gaps := rfl

lemma spanOf_append (leaves more : List Node) :
    spanOf (leaves ++ more) = spanOf leaves + spanOf more := by
  simp only [spanOf, List.flatMap_append, List.length_append, List.countP_append]
  omega

lemma spanOf_leafNodesOf (ns : List Node) : spanOf (leafNodesOf ns) = (ns.map span).sum := by
  induction ns with
  | nil => rfl
  | cons n rest ih => rw [leafNodesOf, spanOf_append, ih, List.map_cons, List.sum_cons, span]

/-- A part counts for what its own parts count for. -/
lemma span_eq_sum {n : Node} (h : n.isLeaf = false) : n.span = (n.children.map span).sum := by
  cases n with
  | array | struct => exact spanOf_leafNodesOf _
  | _ => cases h

/-- Leaves with no more than four rows of four columns. -/
lemma spanOf_le {objectCount : UInt32} {leaves : List Node}
    (h : ∀ n ∈ leaves, n.Valid objectCount) : spanOf leaves ≤ 16 * leaves.length := by
  induction leaves with
  | nil => exact Nat.le_refl 0
  | cons n rest ih =>
    have hrest := ih fun m hm => h m (List.mem_cons_of_mem _ hm)
    have hfirst : spanOf [n] ≤ 16 := by
      have hvalid := h n List.mem_cons_self
      cases n with
      | words d ws =>
        obtain ⟨-, -, -, hrows, hcolumns, hlength⟩ := hvalid
        have hrows : d.rows.toNat ≤ 4 := UInt32.le_iff_toNat_le.1 hrows.2
        have hcolumns : d.columns.toNat ≤ 4 := UInt32.le_iff_toNat_le.1 hcolumns.2
        have hsize := Nat.mul_le_mul hrows hcolumns
        simp [spanOf, leafData, isGap]
        omega
      | _ => simp [spanOf, leafData, isGap]
    have hspan := spanOf_append [n] rest
    rw [List.singleton_append] at hspan
    rw [List.length_cons]
    omega

mutual

/-- A value has no more leaves than nodes. -/
lemma length_leafNodes_le (n : Node) : n.leafNodes.length ≤ n.count := by
  cases n with
  | array d elements =>
    rw [leafNodes, count]
    exact Nat.le_succ_of_le (length_leafNodesOf_le elements)
  | struct d members =>
    rw [leafNodes, count]
    exact Nat.le_succ_of_le (length_leafNodesOf_le members)
  | _ =>
    rw [leafNodes, count]
    exact Nat.le_add_left ..

lemma length_leafNodesOf_le (ns : List Node) : (leafNodesOf ns).length ≤ countOf ns := by
  cases ns with
  | nil => exact Nat.le_refl 0
  | cons n rest =>
    rw [leafNodesOf, countOf, List.length_append]
    exact Nat.add_le_add (length_leafNodes_le n) (length_leafNodesOf_le rest)

end

mutual

/-- The leaves of a value have no parts. -/
lemma isLeaf_of_mem_leafNodes {n m : Node} (hm : m ∈ n.leafNodes) : m.isLeaf = true := by
  cases n with
  | array d elements => exact isLeaf_of_mem_leafNodesOf hm
  | struct d members => exact isLeaf_of_mem_leafNodesOf hm
  | _ => exact List.mem_singleton.1 hm ▸ rfl

lemma isLeaf_of_mem_leafNodesOf {ns : List Node} {m : Node} (hm : m ∈ leafNodesOf ns) :
    m.isLeaf = true := by
  cases ns with
  | nil => cases hm
  | cons n rest =>
    rcases List.mem_append.1 hm with hm | hm
    · exact isLeaf_of_mem_leafNodes hm
    · exact isLeaf_of_mem_leafNodesOf hm

end

/-- All leaves of a value are numbers if nothing else counts for its size. -/
lemma forall_words_iff (n : Node) : (∀ m ∈ n.leafNodes, ∃ d ws, m = .words d ws) ↔
    (n.data .objects).length = 0 ∧ n.gaps = 0 := by
  rw [List.length_eq_zero_iff, data, List.flatMap_eq_nil_iff, gaps, List.countP_eq_zero]
  refine ⟨fun h => ⟨fun m hm => ?_, fun m hm => ?_⟩, fun hnone m hm => ?_⟩
  · obtain ⟨d, ws, rfl⟩ := h m hm
    rfl
  · obtain ⟨d, ws, rfl⟩ := h m hm
    exact Bool.false_ne_true
  · have hleaf := isLeaf_of_mem_leafNodes hm
    have hobject := hnone.1 m hm
    have hgap := hnone.2 m hm
    cases m with
    | words d ws => exact ⟨d, ws, rfl⟩
    | array | struct => cases hleaf
    | object => cases hobject
    | sampler | unsupported => exact absurd rfl hgap

/-! ### Parts of values of an image -/

/-- What a part of a value contains, the value contains. -/
lemma Contains.trans {n m k : Node} {p q q' : Place} (h : n.Contains p m q)
    (h' : m.Contains q k q') : n.Contains p k q' := by
  induction h with
  | self => exact h'
  | element he _ ih => exact .element he (ih h')
  | member hm _ ih => exact .member hm (ih h')
  | state hs _ ih => exact .state hs (ih h')

mutual

/-- A value contains its leaves. -/
lemma contains_of_mem_leafNodes {n m : Node} (hm : m ∈ n.leafNodes) (p : Place) :
    ∃ q, n.Contains p m q := by
  cases n with
  | array d elements =>
    have hm : m ∈ leafNodesOf elements := hm
    obtain ⟨e, he, q, hq⟩ := contains_of_mem_leafNodesOf hm p
    exact ⟨q, .element he hq⟩
  | struct d members =>
    have hm : m ∈ leafNodesOf members := hm
    obtain ⟨e, he, q, hq⟩ := contains_of_mem_leafNodesOf hm p.member
    exact ⟨q, .member he hq⟩
  | _ => exact ⟨p, List.mem_singleton.1 hm ▸ .self⟩

lemma contains_of_mem_leafNodesOf {ns : List Node} {m : Node} (hm : m ∈ leafNodesOf ns)
    (p : Place) : ∃ n ∈ ns, ∃ q, n.Contains p m q := by
  cases ns with
  | nil => cases hm
  | cons n rest =>
    rcases List.mem_append.1 hm with hm | hm
    · exact ⟨n, List.mem_cons_self, contains_of_mem_leafNodes hm p⟩
    · obtain ⟨k, hk, hq⟩ := contains_of_mem_leafNodesOf hm p
      exact ⟨k, List.mem_cons_of_mem _ hk, hq⟩

end

lemma count_le_countOf {n : Node} {ns : List Node} (hn : n ∈ ns) : n.count ≤ countOf ns := by
  rw [countOf_eq_sum]
  exact List.le_sum_of_mem (List.mem_map_of_mem hn)

lemma count_le_countOfStates {s : Assignment Node} {states : List (Assignment Node)}
    (hs : s ∈ states) : s.value.count ≤ countOfStates states := by
  rw [countOfStates_eq_sum]
  exact List.le_sum_of_mem (List.mem_map_of_mem (f := fun s : Assignment Node => s.value.count) hs)

/-- A part of a value has no more nodes than the value. -/
lemma Contains.count_le {n m : Node} {p q : Place} (h : n.Contains p m q) : m.count ≤ n.count := by
  induction h with
  | self => exact Nat.le_refl _
  | element he _ ih => exact Nat.le_trans ih (Nat.le_succ_of_le (count_le_countOf he))
  | member hm _ ih => exact Nat.le_trans ih (Nat.le_succ_of_le (count_le_countOf hm))
  | state hs _ ih => exact Nat.le_trans ih (Nat.le_succ_of_le (count_le_countOfStates hs))

end Node

namespace Image

variable {im : Image} {n m : Node} {q q' : Place}

lemma Contains.trans (h : im.Contains n q) (h' : n.Contains q m q') : im.Contains m q' := by
  cases h with
  | parameter hr hn => exact .parameter hr (hn.trans h')
  | parameterNote hr hm hn => exact .parameterNote hr hm (hn.trans h')
  | techniqueNote ht hm hn => exact .techniqueNote ht hm (hn.trans h')
  | passNote ht hp hm hn => exact .passNote ht hp hm (hn.trans h')
  | passState ht hp hs hn => exact .passState ht hp hs (hn.trans h')

/-- A value has no more nodes than the image that contains it. -/
lemma Contains.count_le (h : im.Contains n q) : n.count ≤ im.nodeCount := by
  have hparameter : ∀ r ∈ im.parameters, r.nodeCount ≤ im.nodeCount := fun r hr =>
    Nat.le_trans (List.le_sum_of_mem (List.mem_map_of_mem hr)) (Nat.le_add_right ..)
  have htechnique : ∀ t ∈ im.techniques, t.nodeCount ≤ im.nodeCount := fun t ht =>
    Nat.le_trans (List.le_sum_of_mem (List.mem_map_of_mem ht)) (Nat.le_add_left ..)
  have hpass : ∀ t ∈ im.techniques, ∀ p ∈ t.passes, p.nodeCount ≤ im.nodeCount := fun t ht p hp =>
    Nat.le_trans (Nat.le_trans (List.le_sum_of_mem (List.mem_map_of_mem hp))
      (Nat.le_add_left ..)) (htechnique t ht)
  cases h with
  | @parameter r hr hn =>
    exact Nat.le_trans (Nat.le_trans hn.count_le (Nat.le_add_left ..)) (hparameter r hr)
  | @parameterNote r note hr hm hn =>
    exact Nat.le_trans (Nat.le_trans (Nat.le_trans hn.count_le (Node.count_le_countOf hm))
      (Nat.le_add_right ..)) (hparameter r hr)
  | @techniqueNote t note ht hm hn =>
    exact Nat.le_trans (Nat.le_trans (Nat.le_trans hn.count_le (Node.count_le_countOf hm))
      (Nat.le_add_right ..)) (htechnique t ht)
  | @passNote t p note ht hp hm hn =>
    exact Nat.le_trans (Nat.le_trans (Nat.le_trans hn.count_le (Node.count_le_countOf hm))
      (Nat.le_add_right ..)) (hpass t ht p hp)
  | @passState t p s ht hp hs hn =>
    exact Nat.le_trans (Nat.le_trans (Nat.le_trans hn.count_le (Node.count_le_countOfStates hs))
      (Nat.le_add_left ..)) (hpass t ht p hp)

/-- A value of a well-formed image is far too small for its size to be saturated. -/
lemma WellFormed.span_lt (him : im.WellFormed) (h : im.Contains n q) : 4 * n.span < 2 ^ 32 := by
  have hleaves : ∀ m ∈ n.leafNodes, m.Valid im.objectCount := fun m hm => by
    obtain ⟨q', hq'⟩ := Node.contains_of_mem_leafNodes hm q
    exact him.valid m q' (h.trans hq')
  have hspan : n.span ≤ 16 * n.leafNodes.length := Node.spanOf_le hleaves
  have hlength := n.length_leafNodes_le
  have hcount := h.count_le
  have hlimit : im.nodeCount ≤ 2 ^ 20 := him.nodeCount_le
  omega

end Image

/-! ### Sizes of nodes -/

lemma Growth.toNat_saturatingAdd (a b : UInt32) :
    (saturatingAdd a b).toNat = min (a.toNat + b.toNat) (2 ^ 32 - 1) := by
  have ha := a.toNat_lt
  have hb := b.toNat_lt
  have hsub : (0xFFFFFFFF - a).toNat = 0xFFFFFFFF - a.toNat :=
    UInt32.toNat_sub_of_le _ _ (UInt32.le_iff_toNat_le.2 (by show _ ≤ 0xFFFFFFFF; omega))
  rw [saturatingAdd]
  split
  · rename_i hlt
    rw [UInt32.lt_iff_toNat_lt, hsub] at hlt
    show 0xFFFFFFFF = _
    omega
  · rename_i hge
    rw [UInt32.lt_iff_toNat_lt, hsub] at hge
    rw [UInt32.toNat_add]
    omega

/-- Sizes that do not reach the limit are added exactly. -/
lemma Growth.toNat_foldl_saturatingAdd (sizes : List UInt32) (a : UInt32)
    (h : a.toNat + (sizes.map UInt32.toNat).sum < 2 ^ 32) :
    (sizes.foldl saturatingAdd a).toNat = a.toNat + (sizes.map UInt32.toNat).sum := by
  induction sizes generalizing a with
  | nil => rfl
  | cons b rest ih =>
    rw [List.map_cons, List.sum_cons] at h ⊢
    have hadd := toNat_saturatingAdd a b
    rw [List.foldl_cons, ih _ (by omega)]
    omega

/-- The size of a value whose parts have their sizes. -/
lemma Growth.toNat_sizeOfNode {objectCount : UInt32} {n : Node} (hvalid : n.Valid objectCount)
    (hfits : 4 * n.span < 2 ^ 32) {sizes : List UInt32}
    (hsizes : sizes.map UInt32.toNat = n.children.map (4 * ·.span)) :
    (sizeOfNode n sizes).toNat = 4 * n.span := by
  have hsum : n.isLeaf = false → (sizes.map UInt32.toNat).sum = 4 * n.span := fun hleaf => by
    rw [hsizes, Node.span_eq_sum hleaf]
    exact List.sum_map_mul_left _ _ _
  cases n with
  | array | struct =>
    have hsum := hsum rfl
    have hfold := toNat_foldl_saturatingAdd sizes 0 (by rw [hsum]; simpa using hfits)
    rw [hsum] at hfold
    exact hfold.trans (Nat.zero_add _)
  | words d ws =>
    obtain ⟨-, -, -, hrows, hcolumns, hlength⟩ := hvalid
    have hspan : (Node.words d ws).span = ws.length := by
      simp [Node.span, Node.spanOf, Node.leafNodes, Node.leafData, Node.isGap]
    rw [hspan] at hfits ⊢
    show (d.rows * d.columns * 4).toNat = _
    rw [UInt32.toNat_mul, hrows.toNat_mul hcolumns, ← hlength]
    show ws.length * 4 % 2 ^ 32 = _
    omega
  | _ => rfl

namespace Tree

variable {t : Tree} {r : Nat} {head : Handle}

/-- The sizes of values that stand. -/
lemma Stands.toNat_bytesAt {objectCount : UInt32} {ns : List Node} {first stop : Nat}
    {start : Storage → Nat} {hs : List Handle} (h : t.Stands r head ns first start hs stop)
    (hvalid : ∀ j p, t.node? j = some p → p.node.Valid objectCount)
    (hfits : 4 * (ns.map Node.span).sum < 2 ^ 32) :
    (hs.map t.bytesAt).map UInt32.toNat = ns.map (4 * ·.span) := by
  induction h with
  | nil => rfl
  | @cons n rest first inner next stop start p hs hnode _ _ _ ih ih' =>
    rw [List.map_cons, List.sum_cons] at hfits
    have hchildren : (n.children.map Node.span).sum ≤ n.span := by
      cases n with
      | array | struct => exact Nat.le_of_eq (Node.span_eq_sum rfl).symm
      | _ => exact Nat.zero_le _
    have hbytes : t.bytesAt ⟨first⟩ = sizeOfNode n (p.members.map t.bytesAt) := by
      rw [bytesAt, hnode.node?, ← hnode.bytes]
      rfl
    have hn : n.Valid objectCount := hnode.node ▸ hvalid _ p hnode.node?
    rw [List.map_cons, List.map_cons, List.map_cons, ih' (by omega), hbytes,
      Growth.toNat_sizeOfNode hn (by omega) (ih (by omega))]

end Tree

namespace Link

variable {im : Image} {l : Linking} {h : Handle} {p : Parameter}

/-- The size of a node is that of its value. -/
theorem IsLinkingOf.toNat_bytes (him : im.WellFormed) (hl : IsLinkingOf im l)
    (hp : l.tree.node? h = some p) : p.bytes.toNat = 4 * p.node.span := by
  have hmade := hl.skeleton.made (made_start im)
  have hvalid : ∀ j p, l.tree.node? j = some p → p.node.Valid im.objectCount := fun j p hp =>
    (hmade.value j p hp).elim fun q hq => him.valid _ q hq
  obtain ⟨q, hq⟩ := hl.exists_belongs him hp
  obtain ⟨place, hcontains⟩ := hmade.value h p hp
  obtain ⟨stop, hmembers⟩ := hq.part.standsAt.members
  have hstands := Tree.Stands.cons hq.part.standsAt.nodeFor hmembers (Nat.le_refl _) .nil
  have hbytes := hstands.toNat_bytesAt hvalid (by simpa using him.span_lt hcontains)
  rw [List.map_cons, List.map_cons, Tree.bytesAt, hp] at hbytes
  exact (List.cons.inj hbytes).1

end Link

end ShaderEffect
