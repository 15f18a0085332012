import ShaderEffect.Proofs.Plan.Shape
import ShaderEffect.Proofs.Value.Raw

/-!
# Registers of values

A value is uploaded leaf by leaf, but the words of a value are read at once and split among the
leaves that its declarations list. That is the same as to walk the tree and to read every leaf by
itself (`EffectState.NumericLeaves`): the words of a node are those of its members, one after the
other. So the registers of a value are the lines of its leaves, each in a register of its own
(`Constant.lay`), and to lay matrices out by columns is to lay out their transposes by rows
(`Host.uploads_lay`).
-/

namespace ShaderEffect

/-! ### Lines of leaves -/

namespace Leaf

/-- The words of a leaf line by line: its columns if it is a matrix that is laid out by columns, and
otherwise its rows. -/
def lines (byColumns : Bool) (l : Leaf) : List (List UInt32) :=
  if byColumns && l.decl.isMatrix then
    (List.range l.decl.columns.toNat).map fun j => (List.range l.decl.rows.toNat).map fun i =>
      l.words.getD (i * l.decl.columns.toNat + j) 0
  else (List.range l.decl.rows.toNat).map fun i =>
    (l.words.drop (i * l.decl.columns.toNat)).take l.decl.columns.toNat

/-- The numbers of a leaf line by line. -/
def numbers (byColumns : Bool) (l : Leaf) : List (List Scalar) :=
  (l.lines byColumns).map fun line => line.map (.ofWord l.decl.type)

/-- A leaf with one to four rows and columns, and a word for each cell. -/
structure Regular (l : Leaf) : Prop where
  rows : IsSmall l.decl.rows
  columns : IsSmall l.decl.columns
  length_words : l.words.length = l.decl.rows.toNat * l.decl.columns.toNat

/-- The second leaf is the first one, or if that is a matrix, its transpose. -/
def TransposesTo (l l' : Leaf) : Prop :=
  l'.decl.type = l.decl.type ∧ l'.decl.isMatrix = l.decl.isMatrix ∧
    if l.decl.isMatrix then
      l'.decl.rows = l.decl.columns ∧ l'.decl.columns = l.decl.rows ∧
        ∀ i < l.decl.rows.toNat, ∀ j < l.decl.columns.toNat,
          l'.words[j * l.decl.rows.toNat + i]? = l.words[i * l.decl.columns.toNat + j]?
    else l'.decl.rows = l.decl.rows ∧ l'.decl.columns = l.decl.columns ∧ l'.words = l.words

end Leaf

section

variable {α : Type}

lemma getElem?_resize (n : Nat) (fill : α) (xs : List α) (k : Nat) :
    (resize n fill xs)[k]? = if k < n then some (xs[k]?.getD fill) else none := by
  rw [resize, List.getElem?_append, List.length_take]
  by_cases hk : k < n
  · rw [if_pos hk]
    by_cases hxs : k < xs.length
    · rw [if_pos (by omega), List.getElem?_take_of_lt hk, List.getElem?_eq_getElem hxs]
      rfl
    · rw [if_neg (by omega), List.getElem?_replicate_of_lt (by omega),
        List.getElem?_eq_none (by omega)]
      rfl
  · rw [if_neg hk, if_neg (by omega), List.getElem?_eq_none (by simp; omega)]

lemma map_resize {β : Type} (f : α → β) (n : Nat) (fill : α) (xs : List α) :
    (resize n fill xs).map f = resize n (f fill) (xs.map f) := by
  simp [resize, List.map_take]

/-- Pieces of one length, one after the other: the piece of a value is where it is expected. -/
lemma take_drop_flatMap {β : Type} {f : α → List β} {n k : Nat} {xs : List α} {x : α}
    (hf : ∀ x ∈ xs, (f x).length = n) (hk : xs[k]? = some x) :
    ((xs.flatMap f).drop (k * n)).take n = f x := by
  induction xs generalizing k with
  | nil => cases hk
  | cons y ys ih =>
    obtain ⟨hy, hys⟩ := List.forall_mem_cons.1 hf
    rw [List.flatMap_cons]
    cases k with
    | zero =>
      obtain rfl := Option.some.inj hk
      rw [Nat.zero_mul, List.drop_zero, ← hy, List.take_left]
    | succ k =>
      rw [Nat.succ_mul, Nat.add_comm, ← List.drop_drop, ← hy, List.drop_left, hy]
      exact ih hys hk

end

namespace Leaf

variable {l l' : Leaf}

/-- The place of a cell is that of a word. -/
lemma Regular.place_lt (h : l.Regular) {i j : Nat} (hi : i < l.decl.rows.toNat)
    (hj : j < l.decl.columns.toNat) : i * l.decl.columns.toNat + j < l.words.length := by
  have hrow := Nat.mul_le_mul_right l.decl.columns.toNat hi
  rw [Nat.succ_mul] at hrow
  rw [h.length_words]
  omega

lemma toList_row (l : Leaf) (i : Nat) : (l.row i).toList = resize 4 .zero
    (((l.words.drop (i * l.decl.columns.toNat)).take l.decl.columns.toNat).map
      (.ofWord l.decl.type)) := by
  refine List.ext_getElem? fun k => ?_
  rw [getElem?_resize, Vector.getElem?_toList, row, Vector.getElem?_ofFn]
  by_cases hk : k < 4
  · simp only [hk, dif_pos, if_pos, List.getElem?_map, List.getElem?_take, List.getElem?_drop,
      Declaration.cell]
    by_cases hcolumn : k < l.decl.columns.toNat
    · simp only [hcolumn, if_pos]
      cases l.words[i * l.decl.columns.toNat + k]? <;> rfl
    · simp [hcolumn]
  · simp [hk]

lemma Regular.toList_column (h : l.Regular) {j : Nat} (hj : j < l.decl.columns.toNat) :
    (l.column j).toList = resize 4 .zero (((List.range l.decl.rows.toNat).map fun i =>
      l.words.getD (i * l.decl.columns.toNat + j) 0).map (.ofWord l.decl.type)) := by
  refine List.ext_getElem? fun k => ?_
  rw [getElem?_resize, Vector.getElem?_toList, column, Vector.getElem?_ofFn]
  by_cases hk : k < 4
  · simp only [hk, dif_pos, if_pos, List.getElem?_map, Declaration.cell]
    by_cases hrow : k < l.decl.rows.toNat
    · simp [hrow, h.place_lt hrow hj]
    · simp [hrow]
  · simp [hk]

/-- A register of a leaf holds a line of it, and zeros after that. -/
lemma Regular.map_toList_registers (h : l.Regular) (byColumns : Bool) :
    (l.registers byColumns).map Vector.toList = (l.numbers byColumns).map (resize 4 .zero) := by
  rw [registers, numbers, lines]
  split
  · simp only [List.map_map]
    exact List.map_congr_left fun j hj => h.toList_column (List.mem_range.1 hj)
  · simp only [List.map_map]
    exact List.map_congr_left fun i _ => l.toList_row i

/-- Laid out by columns, a leaf has the lines that its transpose has by rows. -/
lemma Regular.numbers_eq (h : l.Regular) (htransposes : l.TransposesTo l') :
    l.numbers true = l'.numbers false := by
  obtain ⟨htype, hmatrix, hcells⟩ := htransposes
  rw [numbers, numbers, htype]
  congr 1
  rw [lines, lines, Bool.true_and, Bool.false_and, if_neg Bool.false_ne_true]
  by_cases his : l.decl.isMatrix = true
  · rw [if_pos his] at hcells ⊢
    obtain ⟨hrows, hcolumns, hcells⟩ := hcells
    rw [hrows, hcolumns]
    refine List.map_congr_left fun j hj => List.ext_getElem? fun i => ?_
    rw [List.mem_range] at hj
    rw [List.getElem?_map, List.getElem?_take, List.getElem?_drop]
    by_cases hi : i < l.decl.rows.toNat
    · simp [hi, hcells i hi j hj, h.place_lt hi hj]
    · simp [hi]
  · rw [if_neg his] at hcells ⊢
    obtain ⟨hrows, hcolumns, hwords⟩ := hcells
    rw [hrows, hcolumns, hwords]

/-- Laid out by rows, a leaf has a line for each row. -/
lemma numbers_eq {byColumns : Bool} (h : (byColumns && l.decl.isMatrix) = false) :
    l.numbers byColumns = (List.range l.decl.rows.toNat).map fun i =>
      ((l.words.drop (i * l.decl.columns.toNat)).take l.decl.columns.toNat).map
        (.ofWord l.decl.type) := by
  rw [numbers, lines, h, if_neg Bool.false_ne_true, List.map_map]
  rfl

end Leaf

/-! ### Leaves in tree order -/

/-- The numeric leaves under some nodes, one node after the other and member by member, each with
the words that it reads as by itself. -/
inductive EffectState.NumericLeaves (s : EffectState) : List Handle → List Leaf → Prop
  | nil : NumericLeaves s [] []
  | words {h : Handle} {p : Parameter} {d : Declaration} {ws : List UInt32} {hs : List Handle}
      {ls : List Leaf} : s.tree.node? h = some p → p.node = .words d ws → NumericLeaves s hs ls →
      NumericLeaves s (h :: hs) (⟨d, s.words h⟩ :: ls)
  | members {h : Handle} {p : Parameter} {hs : List Handle} {ls ls' : List Leaf} :
      s.tree.node? h = some p → (∀ d ws, p.node ≠ .words d ws) → NumericLeaves s p.members ls →
      NumericLeaves s hs ls' → NumericLeaves s (h :: hs) (ls ++ ls')

lemma Tree.eq_node_of_value? {t : Tree} {h : Handle} {p : Parameter} {n : Node}
    (hp : t.node? h = some p) (hn : some n = t.value? h) : n = p.node := by
  rw [value?, hp] at hn
  exact Option.some.inj hn

lemma Slice.flatMap_read {α : Type} {start stop : Nat} {slices : List Slice}
    (h : Follow start slices stop) (values : Array α) :
    slices.flatMap (·.read values) = Slice.read ⟨start, stop - start⟩ values := by
  induction slices generalizing start with
  | nil =>
    obtain rfl : start = stop := h
    simp [Slice.read]
  | cons s rest ih =>
    obtain ⟨rfl, hrest⟩ := h
    have hle := hrest.le
    rw [List.flatMap_cons, ih hrest]
    simp only [Slice.read, Slice.stop] at hle ⊢
    rw [← Array.toList_append, Array.extract_append_extract]
    congr 2 <;> omega

namespace EffectState.Grounded

variable {s : EffectState} {l : Link.Linking} (hs : s.Grounded l) {h j : Handle} {p q : Parameter}
include hs

lemma root_of_mem (hp : s.tree.node? h = some p) (hj : j ∈ p.members)
    (hq : s.tree.node? j = some q) : q.root = p.root := by
  have hsame := hs.root?_of_under (Tree.Under.refl.member hp hj)
  rw [Tree.root?_of_node? hq, Tree.root?_of_node? hp] at hsame
  exact Option.some.inj hsame

/-- Whatever has the root of a node is read from the block of the node. -/
lemma words_eq_read (hp : s.tree.node? h = some p) (hq : s.tree.node? j = some q)
    (hroot : q.root = p.root) :
    s.words j = q.words.read (s.memory.block ((s.linked.blockOf? h).getD 0)).words := by
  obtain ⟨id, -, hid, -⟩ := hs.slices j q hq
  have hsame : s.linked.blockOf? h = s.linked.blockOf? j := by
    simp [LinkedEffect.blockOf?, hp, hq, hroot]
  rw [words, LinkedEffect.words, hq, hsame, hid]
  rfl

lemma flatMap_words (hp : s.tree.node? h = some p) {js : List Handle} (hjs : js ⊆ p.members)
    {qs : List Parameter} (hqs : js.map s.tree.node? = qs.map some) :
    js.flatMap s.words = (qs.map (Storage.slice .words)).flatMap
      (·.read (s.memory.block ((s.linked.blockOf? h).getD 0)).words) := by
  induction js generalizing qs with
  | nil =>
    obtain rfl := List.map_eq_nil_iff.1 hqs.symm
    rfl
  | cons j js ih =>
    obtain ⟨q, qs, rfl, hq, hrest⟩ := List.map_eq_cons_iff.1 hqs.symm
    obtain ⟨hj, hjs⟩ := List.cons_subset.1 hjs
    rw [List.flatMap_cons, List.map_cons, List.flatMap_cons, ih hjs hrest.symm,
      hs.words_eq_read hp hq.symm (hs.root_of_mem hp hj hq.symm)]
    rfl

/-- A leaf that is not words has none, and no members either. -/
lemma words_eq_nil_of_isLeaf (hp : s.tree.node? h = some p) (hleaf : p.node.isLeaf = true)
    (hnode : ∀ d ws, p.node ≠ .words d ws) : s.words h = [] ∧ p.members = [] := by
  have hmirrors := hs.mirrors hp
  have hlength := (hs.length_words hp).trans (hmirrors.sizes .words)
  have hmembers := hmirrors.members
  cases hn : p.node with
  | words d ws => exact absurd hn (hnode d ws)
  | array | struct => rw [hn] at hleaf; cases hleaf
  | _ =>
    rw [hn] at hlength hmembers
    exact ⟨List.eq_nil_of_length_eq_zero hlength, List.map_eq_nil_iff.1 hmembers⟩

/-- The words of a node that is not itself words are those of its members. -/
lemma words_eq_flatMap (hp : s.tree.node? h = some p) (hnode : ∀ d ws, p.node ≠ .words d ws) :
    s.words h = p.members.flatMap s.words := by
  cases hleaf : p.node.isLeaf with
  | false =>
    obtain ⟨qs, hqs, hfollow⟩ := (hs.mirrors hp).parts hleaf
    rw [← hs.tree] at hqs
    rw [hs.flatMap_words hp (List.Subset.refl _) hqs, Slice.flatMap_read (hfollow .words),
      hs.words_eq_read hp hp rfl]
    congr 1
    simp [Storage.slice, Slice.stop]
  | true =>
    obtain ⟨hwords, hmembers⟩ := hs.words_eq_nil_of_isLeaf hp hleaf hnode
    rw [hwords, hmembers]
    rfl

/-- The walk comes to an end, since members have larger handles. -/
lemma exists_numericLeaves (handles : List Handle) (hhandles : ∀ h ∈ handles, ∃ p,
    s.tree.node? h = some p) : ∃ ls, s.NumericLeaves handles ls := by
  have hwalk : ∀ (k : Nat) (handles : List Handle), (∀ h ∈ handles,
      s.tree.nodes.size ≤ h.index + k ∧ ∃ p, s.tree.node? h = some p) →
      ∃ ls, s.NumericLeaves handles ls := by
    intro k
    induction k with
    | zero =>
      intro handles hhandles
      cases handles with
      | nil => exact ⟨[], .nil⟩
      | cons h hs' =>
        obtain ⟨hlarge, p, hp⟩ := hhandles h List.mem_cons_self
        exact absurd (Array.getElem?_eq_some_iff.1 hp).1 (Nat.not_lt.2 hlarge)
    | succ k ih =>
      intro handles hhandles
      induction handles with
      | nil => exact ⟨[], .nil⟩
      | cons h rest ih' =>
        obtain ⟨⟨hlarge, p, hp⟩, hrest⟩ := List.forall_mem_cons.1 hhandles
        obtain ⟨ls', hls'⟩ := ih' hrest
        by_cases hnode : ∃ d ws, p.node = .words d ws
        · obtain ⟨d, ws, hnode⟩ := hnode
          exact ⟨_, .words hp hnode hls'⟩
        · obtain ⟨ls, hls⟩ := ih p.members fun j hj => by
            have hlarger := (hs.mirrors hp).larger j hj
            obtain ⟨q, hq, -⟩ := hs.exists_member hp hj
            exact ⟨by omega, q, hq⟩
          exact ⟨_, .members hp (fun d ws h => hnode ⟨d, ws, h⟩) hls hls'⟩
  exact hwalk s.tree.nodes.size handles fun h hh => ⟨Nat.le_add_left .., hhandles h hh⟩

lemma length_words_of_words (hp : s.tree.node? h = some p) {d : Declaration} {ws : List UInt32}
    (hnode : p.node = .words d ws) : IsSmall d.rows ∧ IsSmall d.columns ∧
      (s.words h).length = d.rows.toNat * d.columns.toNat := by
  have hvalid := hs.valid hp
  have hdecl : p.decl = d := by rw [Parameter.decl, hnode]; rfl
  rw [hnode] at hvalid
  rw [← hdecl]
  exact hs.length_words_of_numeric hp (hdecl ▸ hvalid.1) (hdecl ▸ hvalid.2.1)

/-- Splitting the words of some nodes among the leaves of their values gives each leaf its own. -/
lemma splitLeaves_eq {handles : List Handle} {ls : List Leaf}
    (hls : s.NumericLeaves handles ls) {ns : List Node}
    (hns : handles.map s.tree.value? = ns.map some) (ds : List Declaration) (words : List UInt32) :
    splitLeaves (Node.leavesOf ns ++ ds) (handles.flatMap s.words ++ words) =
      ls ++ splitLeaves ds words := by
  induction hls generalizing ns ds words with
  | nil =>
    obtain rfl := List.map_eq_nil_iff.1 hns.symm
    rfl
  | @words h p d ws rest ls hp hnode _ ih =>
    obtain ⟨n, ns, rfl, hn, hrest⟩ := List.map_eq_cons_iff.1 hns.symm
    obtain rfl := Tree.eq_node_of_value? hp hn
    obtain ⟨hrows, hcolumns, hlength⟩ := hs.length_words_of_words hp hnode
    have hcount : (s.words h).length = d.wordCount := by
      rw [hlength, Declaration.wordCount, hrows.toNat_mul hcolumns]
    rw [Node.leavesOf, hnode, Node.leaves, List.flatMap_cons, List.append_assoc, List.append_assoc,
      List.singleton_append, splitLeaves, ← hcount, List.take_left, List.drop_left,
      ih hrest.symm, List.cons_append]
  | @members h p rest ls ls' hp hnode _ _ ihmembers ih =>
    obtain ⟨n, ns, rfl, hn, hrest⟩ := List.map_eq_cons_iff.1 hns.symm
    obtain rfl := Tree.eq_node_of_value? hp hn
    have hmembers : p.members.map s.tree.value? = p.node.children.map some := by
      rw [hs.tree]
      exact (hs.mirrors hp).members
    have hleaves : p.node.leaves = Node.leavesOf p.node.children := by
      cases hn : p.node with
      | words d ws => exact absurd hn (hnode d ws)
      | _ => rfl
    rw [Node.leavesOf, hleaves, List.flatMap_cons, hs.words_eq_flatMap hp hnode, List.append_assoc,
      List.append_assoc, ihmembers hmembers, ih hrest.symm, List.append_assoc]

lemma leaves_eq (hp : s.tree.node? h = some p) {ls : List Leaf} (hls : s.NumericLeaves [h] ls) :
    s.linked.leaves s.memory h = ls := by
  have hvalue : [h].map s.tree.value? = [p.node].map some := by simp [Tree.value?, hp]
  have hsplit := hs.splitLeaves_eq hls hvalue [] []
  simpa [Node.leavesOf, splitLeaves, LinkedEffect.leaves, hp, words] using hsplit

/-- All leaves are as their declarations say. -/
lemma regular_of_mem {handles : List Handle} {ls : List Leaf} (hls : s.NumericLeaves handles ls) :
    ∀ leaf ∈ ls, leaf.Regular := by
  induction hls with
  | nil => exact fun leaf hleaf => absurd hleaf List.not_mem_nil
  | words hp hnode _ ih =>
    obtain ⟨hrows, hcolumns, hlength⟩ := hs.length_words_of_words hp hnode
    exact List.forall_mem_cons.2 ⟨⟨hrows, hcolumns, hlength⟩, ih⟩
  | members _ _ _ _ ihmembers ih => exact List.forall_mem_append.2 ⟨ihmembers, ih⟩

end EffectState.Grounded

/-! ### Registers -/

/-- The registers of a constant: the lines of leaves, one after the other, as many as the constant
has room for, and each with zeros after it. -/
def Constant.lay (c : Constant) (leaves : List Leaf) : List (List Scalar) :=
  (resize c.count [] (leaves.flatMap (Leaf.numbers c.isColumnMajor))).map (resize 4 .zero)

/-- A value has the given registers for a constant, converted to floats and to integers. -/
structure EffectState.Uploads (s : EffectState) (h : Handle) (c : Constant)
    (registers : List (List Scalar)) : Prop where
  floats : s.linked.floatRegisters s.memory h c = registers.flatMap (·.map Scalar.toFloat)
  ints : s.linked.intRegisters s.memory h c = registers.flatMap (·.map Scalar.toInt)

namespace EffectState.Grounded

variable {s : EffectState} {l : Link.Linking} (hs : s.Grounded l) {h j : Handle} {p q : Parameter}
  {ls : List Leaf} {c : Constant}
include hs

lemma map_toList_registers (hp : s.tree.node? h = some p) (hls : s.NumericLeaves [h] ls)
    (c : Constant) : (s.linked.registers s.memory h c).map Vector.toList = c.lay ls := by
  have hall : (ls.flatMap (Leaf.registers c.isColumnMajor)).map Vector.toList =
      (ls.flatMap (Leaf.numbers c.isColumnMajor)).map (resize 4 .zero) := by
    rw [List.map_flatMap, List.map_flatMap]
    exact List.flatMap_congr fun leaf hleaf =>
      (hs.regular_of_mem hls leaf hleaf).map_toList_registers _
  rw [LinkedEffect.registers, hs.leaves_eq hp hls, map_resize, hall, Constant.lay, map_resize]
  rfl

lemma uploads (hp : s.tree.node? h = some p) (hls : s.NumericLeaves [h] ls) (c : Constant) :
    s.Uploads h c (c.lay ls) where
  floats := by
    rw [LinkedEffect.floatRegisters, ← hs.map_toList_registers hp hls, List.flatMap_map]
  ints := by
    rw [LinkedEffect.intRegisters, ← hs.map_toList_registers hp hls, List.flatMap_map]

/-- The leaves of an array of numbers are its elements. -/
lemma leaves_of_array (hp : s.tree.node? h = some p) (helements : p.decl.elements ≠ 0)
    (hnumeric : p.decl.cls.isNumeric = true) (hls : s.NumericLeaves [h] ls) :
    ls = p.members.map fun j => ⟨p.decl.element, s.words j⟩ := by
  have hwords : ∀ {handles ls}, s.NumericLeaves handles ls →
      (∀ j ∈ handles, ∃ q ws, s.tree.node? j = some q ∧ q.node = .words p.decl.element ws) →
      ls = handles.map fun j => ⟨p.decl.element, s.words j⟩ := by
    intro handles ls hls
    induction hls with
    | nil => exact fun _ => rfl
    | words hq hnode _ ih =>
      intro hall
      obtain ⟨⟨q', ws', hq', hnode'⟩, hrest⟩ := List.forall_mem_cons.1 hall
      obtain rfl := Option.some.inj (hq.symm.trans hq')
      obtain ⟨rfl, -⟩ := Node.words.inj (hnode.symm.trans hnode')
      rw [ih hrest, List.map_cons]
    | members hq hnode _ _ _ _ =>
      intro hall
      obtain ⟨⟨q', ws', hq', hnode'⟩, -⟩ := List.forall_mem_cons.1 hall
      obtain rfl := Option.some.inj (hq.symm.trans hq')
      exact absurd hnode' (hnode _ _)
  obtain ⟨-, hmembers⟩ := hs.members_of_array hp helements
  cases hls with
  | @words _ p' d ws _ _ hp' hnode _ =>
    obtain rfl := Option.some.inj (hp.symm.trans hp')
    have hvalid := hs.valid hp
    rw [Parameter.decl] at helements
    rw [hnode] at hvalid helements
    exact absurd hvalid.1 helements
  | members hp' hnode hls hrest =>
    obtain rfl := Option.some.inj (hp.symm.trans hp')
    cases hrest
    rw [List.append_nil]
    refine hwords hls fun j hj => ?_
    obtain ⟨q, hq, hdecl⟩ := hmembers j hj
    rw [Parameter.decl] at hdecl
    obtain ⟨ws, hnode, -⟩ := (hs.valid hq).exists_words (by rw [hdecl]; rfl)
      (by rw [hdecl]; exact hnumeric)
    exact ⟨q, ws, hq, hnode.trans (by rw [hdecl])⟩

/-- Row by row, an array of numbers is laid out element by element. -/
lemma getElem?_lay_of_array (hp : s.tree.node? h = some p) (helements : p.decl.elements ≠ 0)
    (hnumeric : p.decl.cls.isNumeric = true) (hls : s.NumericLeaves [h] ls)
    (hrows : (c.isColumnMajor && p.decl.isMatrix) = false) {k i : Nat}
    (hj : p.members[k]? = some j) (hi : i < p.decl.rows.toNat)
    (hroom : k * p.decl.rows.toNat + i < c.count) :
    (c.lay ls)[k * p.decl.rows.toNat + i]? = some (resize 4 .zero
      (((s.words j).drop (i * p.decl.columns.toNat)).take p.decl.columns.toNat |>.map
        (.ofWord p.decl.type))) := by
  have hnumbers : ∀ leaf ∈ ls, (leaf.numbers c.isColumnMajor).length = p.decl.rows.toNat := by
    rw [hs.leaves_of_array hp helements hnumeric hls]
    intro leaf hleaf
    obtain ⟨j, -, rfl⟩ := List.mem_map.1 hleaf
    rw [Leaf.numbers_eq hrows, List.length_map, List.length_range]
    rfl
  have hleaf : ls[k]? = some ⟨p.decl.element, s.words j⟩ := by
    rw [hs.leaves_of_array hp helements hnumeric hls, List.getElem?_map, hj]
    rfl
  have hpiece := congrArg (·[i]?) (take_drop_flatMap hnumbers hleaf)
  simp only [List.getElem?_take, if_pos hi, List.getElem?_drop] at hpiece
  rw [Constant.lay, List.getElem?_map, getElem?_resize, if_pos hroom, hpiece,
    Leaf.numbers_eq hrows, List.getElem?_map, List.getElem?_range]
  · rfl
  · exact hi

end EffectState.Grounded

/-- By columns, leaves are laid out as their transposes are by rows. -/
lemma Constant.lay_eq {c c' : Constant} {ls ls' : List Leaf} (hregular : ∀ leaf ∈ ls, leaf.Regular)
    (h : List.Forall₂ Leaf.TransposesTo ls ls') (hc : c.isColumnMajor = true)
    (hc' : c'.isColumnMajor = false) (hcount : c'.count = c.count) : c.lay ls = c'.lay ls' := by
  have hall : ls.flatMap (Leaf.numbers true) = ls'.flatMap (Leaf.numbers false) := by
    induction h with
    | nil => rfl
    | cons hfirst _ ih =>
      obtain ⟨hleaf, hrest⟩ := List.forall_mem_cons.1 hregular
      rw [List.flatMap_cons, List.flatMap_cons, ih hrest, hleaf.numbers_eq hfirst]
  rw [lay, lay, hc, hc', hcount, hall]

/-- How values are laid out in registers. There are as many registers as the constant has room for.
Those of floats and of integers hold the lines of the leaves, in tree order; so an array that is
laid out by rows has row `i` of element `k` in register `k * rows + i`. Boolean registers hold a
word each, in row order. And laid out by columns, a value has the registers that by rows any value
has whose matrices are its transposes. -/
theorem Host.uploads_lay {ops : List HostOperation} (hops : ∀ op ∈ ops, op.FromStored) {i : Nat}
    {s : EffectState} (hs : (run {} ops).state? i = some s) {h : Handle} {p : Parameter}
    (hp : s.tree.node? h = some p) (c : Constant) :
    (s.linked.floatRegisters s.memory h c).length = 4 * c.count ∧
    (s.linked.intRegisters s.memory h c).length = 4 * c.count ∧
    (s.linked.boolRegisters s.memory h c).length = c.count ∧
    ∃ leaves, s.NumericLeaves [h] leaves ∧ s.Uploads h c (c.lay leaves) ∧
      s.linked.boolRegisters s.memory h c = resize c.count false (leaves.flatMap fun leaf =>
        leaf.words.map fun w => (Scalar.ofWord leaf.decl.type w).toBool) ∧
      (p.decl.elements ≠ 0 → p.decl.cls.isNumeric = true →
        (c.isColumnMajor && p.decl.isMatrix) = false → ∀ k j i, p.members[k]? = some j →
        i < p.decl.rows.toNat → k * p.decl.rows.toNat + i < c.count →
          (c.lay leaves)[k * p.decl.rows.toNat + i]? = some (resize 4 .zero
            (((s.words j).drop (i * p.decl.columns.toNat)).take p.decl.columns.toNat |>.map
              (.ofWord p.decl.type)))) ∧
      ∀ ops' : List HostOperation, (∀ op ∈ ops', op.FromStored) → ∀ i' s',
        (run {} ops').state? i' = some s' → ∀ h' p' leaves' c', s'.tree.node? h' = some p' →
        s'.NumericLeaves [h'] leaves' → List.Forall₂ Leaf.TransposesTo leaves leaves' →
        c.isColumnMajor = true → c'.isColumnMajor = false → c'.count = c.count →
          s'.Uploads h' c' (c.lay leaves) := by
  obtain ⟨l, hgrounded⟩ := exists_grounded hops hs
  obtain ⟨leaves, hleaves⟩ := hgrounded.exists_numericLeaves [h] (by simp [hp])
  refine ⟨?_, ?_, ?_, leaves, hleaves, hgrounded.uploads hp hleaves c, ?_, ?_, ?_⟩
  · rw [LinkedEffect.length_floatRegisters, Nat.mul_comm]
  · rw [LinkedEffect.length_intRegisters, Nat.mul_comm]
  · exact LinkedEffect.length_boolRegisters ..
  · rw [LinkedEffect.boolRegisters, hgrounded.leaves_eq hp hleaves]
    rfl
  · exact fun helements hnumeric hrows k j i hj hi hroom =>
      hgrounded.getElem?_lay_of_array hp helements hnumeric hleaves hrows hj hi hroom
  · intro ops' hops' i' s' hs' h' p' leaves' c' hp' hleaves' htransposes hc hc' hcount
    obtain ⟨l', hgrounded'⟩ := exists_grounded hops' hs'
    rw [Constant.lay_eq (hgrounded.regular_of_mem hleaves) htransposes hc hc' hcount]
    exact hgrounded'.uploads hp' hleaves' c'

/-- The two matrices of the lantern, laid out by columns in registers that hold five of the six. -/
theorem Host.uploads_lay_lantern : ∃ s p, lantern.state? = some s ∧ s.tree.node? ⟨2⟩ = some p ∧
    let c : Constant := ⟨"turns", .int4, 0, 5, some ⟨.matrixColumns, .int, 2, 3, 2⟩⟩
    (s.linked.intRegisters s.memory ⟨2⟩ c).length = 20 ∧
    (∃ leaves, s.NumericLeaves [⟨2⟩] leaves ∧ s.Uploads ⟨2⟩ c (c.lay leaves)) ∧
    s.linked.intRegisters s.memory ⟨2⟩ c =
      [1, 4, 0, 0, 2, 5, 0, 0, 3, 6, 0, 0, 7, 10, 0, 0, 8, 11, 0, 0] := by
  obtain ⟨s, hs, hnode, hints⟩ : ∃ s ∈ lantern.state?, (s.tree.node? ⟨2⟩).isSome = true ∧
      s.linked.intRegisters s.memory ⟨2⟩ ⟨"turns", .int4, 0, 5,
        some ⟨.matrixColumns, .int, 2, 3, 2⟩⟩ =
        [1, 4, 0, 0, 2, 5, 0, 0, 3, 6, 0, 0, 7, 10, 0, 0, 8, 11, 0, 0] := by
    decide +kernel
  obtain ⟨p, hp⟩ := Option.isSome_iff_exists.1 hnode
  obtain ⟨ops, hops, hrun⟩ := WrittenEffect.exists_run hs
  obtain ⟨-, hlength, -, leaves, hleaves, huploads, -⟩ := uploads_lay hops hrun hp
    ⟨"turns", .int4, 0, 5, some ⟨.matrixColumns, .int, 2, 3, 2⟩⟩
  exact ⟨s, p, hs, hp, hlength, ⟨leaves, hleaves, huploads⟩, hints⟩

end ShaderEffect
