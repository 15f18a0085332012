import ShaderEffect.Proofs.Host.Private
import ShaderEffect.Proofs.Value.Grounded

/-!
# Bytes of nodes within nodes

The bytes of a node are those of its members, one after the other, so every node below another has
an offset in it (`Tree.OffsetIn`), and its bytes are a part of the other's. Bytes that are written
to one node are read back through all nodes above and below it, and nothing else changes
(`Host.SetsBytes`).
-/

namespace ShaderEffect

/-! ### Bytes of words -/

namespace Word

lemma bytes_ofBytes (a b c d : UInt8) : bytes (ofBytes a b c d) = [a, b, c, d] := by
  have ha := a.toNat_lt
  have hb := b.toNat_lt
  have hc := c.toNat_lt
  have hd := d.toNat_lt
  simp only [bytes, byteAt, ofBytes, List.cons.injEq, and_true, ← UInt8.toNat_inj,
    UInt8.toNat_ofNat', UInt32.toNat_ofNat']
  omega

/-- Words are overlaid with the bytes of the front, if there are enough. -/
lemma listBytes_overlay {bs : List UInt8} {ws : List UInt32} (h : 4 * ws.length ≤ bs.length) :
    listBytes (overlay (ofList bs) ws) = bs.take (4 * ws.length) := by
  induction ws generalizing bs with
  | nil => simp [overlay, Image.listBytes_nil]
  | cons w ws ih =>
    rw [List.length_cons] at h ⊢
    obtain ⟨a, b, c, d, rest, rfl⟩ : ∃ a b c d rest, bs = a :: b :: c :: d :: rest := by
      rcases bs with _ | ⟨a, _ | ⟨b, _ | ⟨c, _ | ⟨d, rest⟩⟩⟩⟩
      case cons.cons.cons.cons => exact ⟨a, b, c, d, rest, rfl⟩
      all_goals
        simp only [List.length_cons, List.length_nil] at h
        omega
    simp only [List.length_cons] at h
    have hrest : listBytes (overlay (ofList rest) ws) = rest.take (4 * ws.length) :=
      ih (by omega)
    rw [overlay] at hrest
    rw [ofList, overlay, List.length_cons, List.take_succ_cons, List.length_cons,
      List.drop_succ_cons, List.cons_append, Image.listBytes_cons, hrest, bytes_ofBytes,
      Nat.mul_succ]
    rfl

lemma listBytes_take (ws : List UInt32) (n : Nat) :
    listBytes (ws.take n) = (listBytes ws).take (4 * n) := by
  induction ws generalizing n with
  | nil => simp [Image.listBytes_nil]
  | cons w ws ih =>
    cases n with
    | zero => rfl
    | succ n =>
      have hle : (bytes w).length ≤ 4 * (n + 1) := by
        rw [length_bytes]
        omega
      rw [List.take_succ_cons, Image.listBytes_cons, ih, Image.listBytes_cons, List.take_append,
        List.take_of_length_le hle, length_bytes, show 4 * (n + 1) - 4 = 4 * n by omega]

lemma listBytes_drop (ws : List UInt32) (n : Nat) :
    listBytes (ws.drop n) = (listBytes ws).drop (4 * n) := by
  induction ws generalizing n with
  | nil => simp [Image.listBytes_nil]
  | cons w ws ih =>
    cases n with
    | zero => rfl
    | succ n =>
      have hle : (bytes w).length ≤ 4 * (n + 1) := by
        rw [length_bytes]
        omega
      rw [List.drop_succ_cons, ih, Image.listBytes_cons, List.drop_append,
        List.drop_of_length_le hle, List.nil_append, length_bytes,
        show 4 * (n + 1) - 4 = 4 * n by omega]

end Word

/-! ### Slices within slices -/

namespace Slice

variable {α : Type} {inner outer : Slice} {values : Array α} {new : List α}

/-- What an inner slice reads is a part of what the outer one reads. -/
lemma read_inner (hstart : outer.start ≤ inner.start) (hstop : inner.stop ≤ outer.stop)
    (values : Array α) : inner.read values =
      ((outer.read values).drop (inner.start - outer.start)).take inner.length := by
  rw [stop, stop] at hstop
  refine List.ext_getElem? fun n => ?_
  rw [getElem?_read, List.getElem?_take, List.getElem?_drop, getElem?_read]
  split
  · rw [if_pos (by omega)]
    congr 1
    omega
  · rfl

/-- Where an inner slice is written, the outer one reads what was written, and the same around
it. -/
lemma read_write_inner (hstart : outer.start ≤ inner.start) (hstop : inner.stop ≤ outer.stop)
    (hsize : outer.stop ≤ values.size) (hnew : new.length = inner.length) :
    outer.read (inner.write values new) = (outer.read values).take (inner.start - outer.start) ++
      new ++ (outer.read values).drop (inner.start - outer.start + inner.length) := by
  have hlength := length_read_of_stop_le hsize
  rw [stop] at hsize
  rw [stop, stop] at hstop
  refine List.ext_getElem? fun n => ?_
  rw [getElem?_read]
  by_cases hn : n < outer.length
  · rw [if_pos hn]
    by_cases hbefore : outer.start + n < inner.start
    · have hnot : ¬inner.Has (outer.start + n) := fun h => Nat.not_le_of_lt hbefore h.1
      rw [getElem?_write_of_not_has _ _ _ hnot, List.append_assoc,
        List.getElem?_append_left (by rw [List.length_take]; omega),
        List.getElem?_take_of_lt (by omega), getElem?_read, if_pos hn]
    have hplace : outer.start + n - inner.start = n - (inner.start - outer.start) := by omega
    have htake : ((outer.read values).take (inner.start - outer.start)).length =
        inner.start - outer.start := by
      rw [List.length_take]
      omega
    rw [List.append_assoc, List.getElem?_append_right (by omega), htake]
    by_cases hinside : outer.start + n < inner.start + inner.length
    · have hhas : inner.Has (outer.start + n) := ⟨Nat.le_of_not_lt hbefore, hinside⟩
      rw [getElem?_write_of_has hhas (by omega), List.getElem?_append_left (by omega), hplace]
    · have hnot : ¬inner.Has (outer.start + n) := fun h => hinside h.2
      rw [getElem?_write_of_not_has _ _ _ hnot, List.getElem?_append_right (by omega),
        List.getElem?_drop, getElem?_read, if_pos (by omega)]
      congr 1
      omega
  · rw [if_neg hn, eq_comm, List.getElem?_eq_none]
    simp only [List.length_append, List.length_take, List.length_drop]
    omega

lemma Follow.le {start stop : Nat} {slices : List Slice} (h : Follow start slices stop) :
    start ≤ stop := by
  induction slices generalizing start with
  | nil => exact Nat.le_of_eq h
  | cons s rest ih => exact Nat.le_trans (h.1 ▸ Nat.le_add_right ..) (ih h.2)

/-- The slices before one of some that follow one another fill the space before it. -/
lemma Follow.split {start stop : Nat} {before after : List Slice} {s : Slice}
    (h : Follow start (before ++ s :: after) stop) :
    s.start = start + (before.map Slice.length).sum ∧ s.stop ≤ stop := by
  induction before generalizing start with
  | nil => exact ⟨h.1, h.2.le⟩
  | cons s' before ih =>
    obtain ⟨hstart, hstop⟩ := ih h.2
    refine ⟨?_, hstop⟩
    rw [hstart, Slice.stop, h.1, List.map_cons, List.sum_cons, Nat.add_assoc]

end Slice

/-! ### Offsets -/

namespace Node

lemma leafNodes_subset_of_mem {n : Node} {ns : List Node} (hn : n ∈ ns) :
    n.leafNodes ⊆ leafNodesOf ns := by
  induction ns with
  | nil => cases hn
  | cons n' ns ih =>
    rcases List.mem_cons.1 hn with rfl | hn
    · exact List.subset_append_left ..
    · exact List.Subset.trans (ih hn) (List.subset_append_right ..)

/-- The leaves of a part are leaves of the value. -/
lemma leafNodes_subset {n m : Node} (hn : n ∈ m.children) : n.leafNodes ⊆ m.leafNodes := by
  cases m with
  | array | struct => exact leafNodes_subset_of_mem hn
  | _ => cases hn

end Node

namespace Tree

variable {t : Tree}

/-- How many bytes of a node come before a node below it: on every level, those of the members
before it. -/
inductive OffsetIn (t : Tree) (h : Handle) : Handle → Nat → Prop
  | refl : OffsetIn t h h 0
  | member {i j : Handle} {n : Nat} {p : Parameter} {before after : List Handle} :
      OffsetIn t h i n → t.node? i = some p → p.members = before ++ j :: after →
      OffsetIn t h j (n + (before.map fun b => (t.bytesAt b).toNat).sum)

/-- What is below a node has an offset in it. -/
lemma Under.exists_offsetIn {h j : Handle} (hj : t.Under h j) : ∃ n, t.OffsetIn h j n := by
  induction hj with
  | refl => exact ⟨0, .refl⟩
  | member _ hp hmem ih =>
    obtain ⟨n, hn⟩ := ih
    obtain ⟨before, after, hmembers⟩ := List.append_of_mem hmem
    exact ⟨_, hn.member hp hmembers⟩

lemma OffsetIn.under {h j : Handle} {n : Nat} (hj : t.OffsetIn h j n) : t.Under h j := by
  induction hj with
  | refl => exact .refl
  | member _ hp hmembers ih => exact ih.member hp (by simp [hmembers])

end Tree

/-- Numbers within numbers: a node has the words of another one from an offset on. -/
structure Parameter.RawWithin (p : Parameter) (n : Nat) (q : Parameter) : Prop where
  raw : q.isRaw = true
  root : q.root = p.root
  start : 4 * q.words.start = 4 * p.words.start + n
  stop : q.words.stop ≤ p.words.stop

/-- The size of a node that is all numbers. -/
lemma Parameter.toNat_bytes_of_isRaw {p : Parameter} (h : p.isRaw = true) :
    p.bytes.toNat = 4 * p.words.length := by
  simp only [isRaw, Bool.and_eq_true, beq_iff_eq] at h
  omega

namespace Parameter.RawWithin

variable {p q : Parameter} {n : Nat} (h : p.RawWithin n q)
include h

/-- The offset in bytes is that of the words. -/
lemma offset_eq : 4 * (q.words.start - p.words.start) = n := by
  have hstart := h.start
  omega

/-- A node ends where the one around it ends or before. -/
lemma offset_add_le (hraw : p.isRaw = true) : n + q.bytes.toNat ≤ p.bytes.toNat := by
  have hstart := h.start
  have hstop := h.stop
  rw [p.toNat_bytes_of_isRaw hraw, q.toNat_bytes_of_isRaw h.raw]
  simp only [Slice.stop] at hstop
  omega

end Parameter.RawWithin

namespace EffectState.Grounded

variable {s s' : EffectState} {l : Link.Linking} (hs : s.Grounded l) {a d h : Handle}
  {p q : Parameter} {n : Nat} {buffer data : List UInt8}
include hs

/-- A node is exchanged as bytes if all its leaves are numbers. -/
lemma isRaw_iff (hp : s.tree.node? h = some p) :
    p.isRaw = true ↔ ∀ m ∈ p.node.leafNodes, ∃ d ws, m = .words d ws := by
  have htakes := (hs.mirrors hp).takesBytes_iff
    (p.bytes.toNat + 4 * (p.node.data .words).length)
  exact ⟨fun hraw => (htakes.1 ⟨hraw, Nat.le_add_right ..⟩).1,
    fun hleaves => (htakes.2 ⟨hleaves, Nat.le_add_left ..⟩).1⟩

/-- The members of a node that is all numbers are so. -/
lemma isRaw_of_mem (hp : s.tree.node? h = some p) (hraw : p.isRaw = true) (hd : d ∈ p.members)
    (hq : s.tree.node? d = some q) : q.isRaw = true := by
  obtain ⟨q', hq', hchild⟩ := hs.exists_member hp hd
  obtain rfl := Option.some.inj (hq.symm.trans hq')
  rw [hs.isRaw_iff hp] at hraw
  exact (hs.isRaw_iff hq).2 fun m hm => hraw m (Node.leafNodes_subset hchild hm)

lemma root?_of_under (h : s.tree.Under a d) : s.tree.root? d = s.tree.root? a := by
  have hlaid := hs.linking.skeleton.laid (Link.laid_start _)
  rw [hs.tree] at h ⊢
  exact h.root?_eq hlaid

/-- Sizes of members that are all numbers add up to those of their words. -/
lemma sum_bytesAt (hp : s.tree.node? h = some p) (hraw : p.isRaw = true) {before : List Handle}
    {qs : List Parameter} (hbefore : before ⊆ p.members)
    (hqs : before.map s.tree.node? = qs.map some) :
    (before.map fun b => (s.tree.bytesAt b).toNat).sum =
      4 * ((qs.map (Storage.slice .words)).map Slice.length).sum := by
  induction before generalizing qs with
  | nil =>
    obtain rfl := List.map_eq_nil_iff.1 hqs.symm
    rfl
  | cons b rest ih =>
    obtain ⟨q, qs, rfl, hq, hrest⟩ := List.map_eq_cons_iff.1 hqs.symm
    have hsize := (hs.isRaw_of_mem hp hraw (hbefore List.mem_cons_self) hq.symm)
    have hbytes : (s.tree.bytesAt b).toNat = 4 * q.words.length := by
      rw [Tree.bytesAt, ← hq]
      exact q.toNat_bytes_of_isRaw hsize
    rw [List.map_cons, List.sum_cons, hbytes,
      ih (fun _ h => hbefore (List.mem_cons_of_mem _ h)) hrest.symm, List.map_cons, List.map_cons,
      List.sum_cons, Nat.mul_add]
    rfl

/-- What is below a node that is all numbers has its part of the words. -/
lemma exists_rawWithin (hp : s.tree.node? a = some p) (hraw : p.isRaw = true)
    (hoffset : s.tree.OffsetIn a d n) : ∃ q, s.tree.node? d = some q ∧ p.RawWithin n q := by
  induction hoffset with
  | refl => exact ⟨p, hp, hraw, rfl, rfl, Nat.le_refl _⟩
  | @member i j n u before after hbelow hu hmembers ih =>
    obtain ⟨u', hu', hwithin⟩ := ih
    obtain rfl := Option.some.inj (hu.symm.trans hu')
    have hj : j ∈ u.members := by simp [hmembers]
    have hbefore : before ⊆ u.members := by simp [hmembers]
    obtain ⟨qs, hqs, hfollow⟩ := hs.exists_parts hu hj
    rw [hmembers, List.map_append, List.map_cons, eq_comm, List.map_eq_append_iff] at hqs
    obtain ⟨qs₁, qs₂, rfl, hqs₁, hqs₂⟩ := hqs
    obtain ⟨q, qs₂, rfl, hq, -⟩ := List.map_eq_cons_iff.1 hqs₂
    have hwords := hfollow .words
    rw [List.map_append, List.map_cons] at hwords
    obtain ⟨hstart, hstop⟩ := hwords.split
    have hroot : q.root = u.root := by
      have hsame := hs.root?_of_under (Tree.Under.refl.member hu hj)
      rw [Tree.root?_of_node? hq.symm, Tree.root?_of_node? hu] at hsame
      exact Option.some.inj hsame
    refine ⟨q, hq.symm, hs.isRaw_of_mem hu hwithin.raw hj hq.symm, hroot.trans hwithin.root, ?_,
      Nat.le_trans hstop hwithin.stop⟩
    rw [hs.sum_bytesAt hu hwithin.raw hbefore hqs₁.symm, ← Nat.add_assoc, ← hwithin.start]
    show 4 * (Storage.slice .words q).start = _
    rw [hstart, Nat.mul_add]
    rfl

/-! ### Values within values -/

/-- The words of a node within another one are a part of its words. -/
lemma words_rawWithin (hp : s.tree.node? a = some p) (hq : s.tree.node? d = some q)
    (hwithin : p.RawWithin n q) :
    s.words d = ((s.words a).drop (q.words.start - p.words.start)).take q.words.length := by
  have hstart := hwithin.start
  have hblock : s.linked.blockOf? d = s.linked.blockOf? a := by
    simp [LinkedEffect.blockOf?, hp, hq, hwithin.root]
  obtain ⟨id, -, hid, -⟩ := hs.slices a p hp
  rw [words, words, LinkedEffect.words, LinkedEffect.words, hp, hq, hblock, hid]
  exact Slice.read_inner (by omega) hwithin.stop _

/-- Bytes that are read of a node that is all numbers. -/
lemma getValue_eq (hp : s.tree.node? h = some p) (hraw : p.isRaw = true)
    (hle : p.bytes.toNat ≤ buffer.length) :
    s.getValue h buffer = .ok (Word.listBytes (s.words h) ++ buffer.drop p.bytes.toNat) := by
  obtain ⟨q, hq⟩ := (exists_rawNode_iff hp buffer.length).2 ⟨hraw, hle⟩
  have hlength : (Word.listBytes (s.words h)).length = p.bytes.toNat := by
    rw [Image.length_listBytes, hs.length_words hp, p.toNat_bytes_of_isRaw hraw]
  rw [getValue, hq]
  show Except.ok (overlay _ buffer) = _
  rw [overlay, hlength, List.take_of_length_le (by omega)]

/-- Where a node is written, one that it is within reads what was written, and the same around
it. -/
lemma words_writeWords_within (hp : s.tree.node? a = some p) (hq : s.tree.node? d = some q)
    (hwithin : p.RawWithin n q) {f : List UInt32 → List UInt32}
    (hf : ∀ words, (f words).length = words.length) : (s.writeWords d f).words a =
      (s.words a).take (q.words.start - p.words.start) ++ f (s.words d) ++
        (s.words a).drop (q.words.start - p.words.start + q.words.length) := by
  have hstart := hwithin.start
  obtain ⟨id, c, hid, hlt, -, hsize⟩ := hs.slices a p hp
  have hblock : s.linked.blockOf? d = some id := by
    rw [← hid]
    simp [LinkedEffect.blockOf?, hp, hq, hwithin.root]
  have hwritten : ((s.writeWords d f).memory.block id).words =
      q.words.write (s.memory.block id).words (f (q.words.read (s.memory.block id).words)) := by
    rw [memory_writeWords, LinkedEffect.writeWords]
    exact congrArg Contents.words
      (LinkedEffect.toContents_block_writeBlock (m := s.memory) hq hblock hlt _)
  have hlength : (f (q.words.read (s.memory.block id).words)).length = q.words.length := by
    rw [hf]
    exact Slice.length_read_of_stop_le (Nat.le_trans hwithin.stop (hsize .words).1)
  simp only [words, LinkedEffect.words, linked_writeWords, hp, hq, hid, hblock, hwritten]
  exact Slice.read_write_inner (by omega) hwithin.stop (hsize .words).1 hlength

end EffectState.Grounded

/-! ### Bytes that are written -/

namespace EffectState

variable {s s' : EffectState} {l : Link.Linking} {a d h : Handle} {p q : Parameter} {n : Nat}
  {buffer data out : List UInt8}

/-- What a write of bytes does if it succeeds. -/
lemma exists_of_setValue (hset : s.setValue h data = .ok s') : ∃ p, s.tree.node? h = some p ∧
    p.isRaw = true ∧ p.bytes.toNat ≤ data.length ∧
      s' = s.writeWords h (overlay (Word.ofList data)) := by
  obtain ⟨p, hnode, hwrite⟩ := exists_of_bind_eq_ok hset
  obtain ⟨p', hp, -⟩ := exists_of_bind_eq_ok hnode
  rw [node_eq_ok_iff] at hp
  obtain ⟨hraw, hle⟩ := (exists_rawNode_iff hp data.length).1 ⟨p, hnode⟩
  exact ⟨p', hp, hraw, hle, (Except.ok.inj hwrite).symm⟩

namespace Grounded

variable (hs : s.Grounded l) (hp : s.tree.node? h = some p) (hraw : p.isRaw = true)
  (hle : p.bytes.toNat ≤ data.length) (hs' : s' = s.writeWords h (overlay (Word.ofList data)))
include hs hp hraw hle hs'

/-- The words of a node hold the bytes that were written. -/
lemma listBytes_setValue : Word.listBytes (s'.words h) = data.take p.bytes.toNat := by
  have hlength := hs.length_words hp
  have hbytes := p.toNat_bytes_of_isRaw hraw
  rw [hs', words_writeWords_self fun words => length_overlay .., Word.listBytes_overlay (by omega),
    hlength, hbytes]

/-- Below the node, the bytes that were written are read from the offset on. -/
lemma getValue_below (hq : s.tree.node? d = some q) (hwithin : p.RawWithin n q) :
    n + q.bytes.toNat ≤ p.bytes.toNat ∧ ∀ buffer : List UInt8, q.bytes.toNat ≤ buffer.length →
      s'.getValue d buffer =
        .ok ((data.drop n).take q.bytes.toNat ++ buffer.drop q.bytes.toNat) := by
  have hgrounded : s'.Grounded l := hs' ▸ hs.setting (trail_writeWords hs.counter_lt).setting
  have htree : s'.tree = s.tree := hs' ▸ tree_writeWords _
  have hend := hwithin.offset_add_le hraw
  refine ⟨hend, fun buffer hbuffer => ?_⟩
  rw [hgrounded.getValue_eq (htree ▸ hq) hwithin.raw hbuffer,
    hgrounded.words_rawWithin (htree ▸ hp) (htree ▸ hq) hwithin, Word.listBytes_take,
    Word.listBytes_drop, hs.listBytes_setValue hp hraw hle hs', hwithin.offset_eq,
    ← q.toNat_bytes_of_isRaw hwithin.raw, List.drop_take, List.take_take,
    Nat.min_eq_left (by omega)]

/-- Above the node, the bytes at the offset are those that were written, and the others stay. -/
lemma getValue_above (hq : s.tree.node? a = some q) (hwithin : q.RawWithin n p)
    (hout : s.getValue a buffer = .ok out) : n + p.bytes.toNat ≤ q.bytes.toNat ∧
      s'.getValue a buffer =
        .ok (out.take n ++ data.take p.bytes.toNat ++ out.drop (n + p.bytes.toNat)) := by
  have hgrounded : s'.Grounded l := hs' ▸ hs.setting (trail_writeWords hs.counter_lt).setting
  have htree : s'.tree = s.tree := hs' ▸ tree_writeWords _
  obtain ⟨hraw', hle'⟩ := (exists_rawNode_iff hq buffer.length).1
    ((exists_getValue_iff buffer).1 ⟨out, hout⟩)
  have hend := hwithin.offset_add_le hraw'
  have hlength : (Word.listBytes (s.words a)).length = q.bytes.toNat := by
    rw [Image.length_listBytes, hs.length_words hq, q.toNat_bytes_of_isRaw hraw']
  rw [hs.getValue_eq hq hraw' hle', Except.ok.injEq] at hout
  have hwritten := hs.listBytes_setValue hp hraw hle hs'
  rw [hs', words_writeWords_self fun words => length_overlay ..] at hwritten
  refine ⟨hend, ?_⟩
  rw [hgrounded.getValue_eq (htree ▸ hq) hraw' hle', hs',
    hs.words_writeWords_within hq hp hwithin fun words => length_overlay .., Image.listBytes_append,
    Image.listBytes_append, Word.listBytes_take, Word.listBytes_drop, hwritten, Nat.mul_add,
    hwithin.offset_eq, ← p.toNat_bytes_of_isRaw hraw, ← hout,
    List.take_append_of_le_length (by omega), List.drop_append_of_le_length (by omega),
    List.append_assoc, List.append_assoc]

omit hle hs' in
/-- A node that is reset reads as it did when the effect was made. -/
lemma exists_resetValue_getValue : ∃ s', s.resetValue h = .ok s' ∧
    ∀ buffer : List UInt8, p.bytes.toNat ≤ buffer.length → s'.getValue h buffer =
      .ok (Word.listBytes (p.node.data .words) ++ buffer.drop p.bytes.toNat) := by
  obtain ⟨s', hreset, hlinked, -, hwords, -⟩ := hs.exists_restored hp
  have hgrounded := hs.setting (setting_resetValue hs.counter_lt hreset)
  refine ⟨s', hreset, fun buffer hbuffer => ?_⟩
  have hp' : s'.tree.node? h = some p := by rwa [EffectState.tree, hlinked]
  rw [hgrounded.getValue_eq hp' hraw hbuffer, hwords]

end Grounded

end EffectState

namespace Host

/-- What is left of a state by bytes that were written to a node. -/
structure SetsBytes (host : Host) (s : EffectState) (h : Handle) (p : Parameter) (data : List UInt8)
    (s' : EffectState) : Prop where
  /-- The node reads as the first of the bytes. -/
  whole : ∀ buffer : List UInt8, p.bytes.toNat ≤ buffer.length →
    s'.getValue h buffer = .ok (data.take p.bytes.toNat ++ buffer.drop p.bytes.toNat)
  /-- What is below a node has an offset in it. -/
  offsets : ∀ a d, s.tree.Under a d → ∃ n, s.tree.OffsetIn a d n
  /-- A node below reads as the bytes at its offset. -/
  below : ∀ d n, s.tree.OffsetIn h d n → ∃ q, s.tree.node? d = some q ∧
    n + q.bytes.toNat ≤ p.bytes.toNat ∧ ∀ buffer : List UInt8, q.bytes.toNat ≤ buffer.length →
      s'.getValue d buffer = .ok ((data.drop n).take q.bytes.toNat ++ buffer.drop q.bytes.toNat)
  /-- A node above reads otherwise only at the offset of the node in it. -/
  above : ∀ a n, s.tree.OffsetIn a h n → ∃ q, s.tree.node? a = some q ∧
    ∀ buffer out, s.getValue a buffer = .ok out → n + p.bytes.toNat ≤ q.bytes.toNat ∧
      s'.getValue a buffer =
        .ok (out.take n ++ data.take p.bytes.toNat ++ out.drop (n + p.bytes.toNat))
  /-- Neither words nor object slots change of what is disjoint from the node. -/
  others : ∀ g, s.linked.Disjoint h g → ∀ k : Storage, s'.values k g = s.values k g
  /-- What is neither above nor below the node is disjoint from it, if it has the same root or if
  the two are not bound to the same entry of a pool. -/
  apart : ∀ g, ¬s.tree.Under h g → ¬s.tree.Under g h → s.tree.root? g = s.tree.root? h ∨
    (∀ q name, ¬(host.Bound s.linked h q name ∧ host.Bound s.linked g q name)) →
      s.linked.Disjoint h g
  /-- What the effect was made with stays, and the node can be reset to what it held then. -/
  initial : s'.linked = s.linked ∧ ∃ s'', s'.resetValue h = .ok s'' ∧
    ∀ buffer : List UInt8, p.bytes.toNat ≤ buffer.length → s''.getValue h buffer =
      .ok (Word.listBytes (p.node.data .words) ++ buffer.drop p.bytes.toNat)

/-- Nodes of an effect that address a common place are above or below one another, or have
different roots that are bound to the same entry. -/
lemma disjoint_of_not_under {host : Host} (hreachable : host.Reachable) {i : Nat} {s : EffectState}
    (hs : host.state? i = some s) {h g : Handle} (hbelow : ¬s.tree.Under h g)
    (habove : ¬s.tree.Under g h) (hapart : s.tree.root? g = s.tree.root? h ∨
      ∀ q name, ¬(host.Bound s.linked h q name ∧ host.Bound s.linked g q name)) :
    s.linked.Disjoint h g := by
  intro id k j hh hg
  obtain ⟨p, hp, hid, hj⟩ := LinkedEffect.addresses_singleton.1 hh
  obtain ⟨q, hq, hid', hj'⟩ := LinkedEffect.addresses_singleton.1 hg
  obtain ⟨owner, howned⟩ := hreachable.owned
  obtain ⟨use, -, hfits⟩ := hreachable.laidOut.fits hs
  obtain ⟨heffect, -⟩ := state?_eq_some.1 hs
  have hroot : p.root = q.root := by
    rcases hapart with hsame | hapart
    · rw [Tree.root?_of_node? hp, Tree.root?_of_node? hq] at hsame
      exact (Option.some.inj hsame).symm
    · rcases howned.eq_or_bound heffect heffect hfits hfits hp hq hid hid' with
        ⟨-, hsame⟩ | ⟨q, name, hbound⟩
      · exact hsame
      · exact absurd hbound (hapart q name)
  exact (hfits.under_or_under hp hq hroot hj hj').elim hbelow habove

/-- Bytes that a node takes are read back through all nodes above and below it, and change nothing
else. -/
theorem setsBytes_run {ops : List HostOperation} (hops : ∀ op ∈ ops, op.FromStored) {i : Nat}
    {s s' : EffectState} (hs : (run {} ops).state? i = some s) {h : Handle} {data : List UInt8}
    (hset : s.setValue h data = .ok s') : ∃ p, s.tree.node? h = some p ∧
      p.bytes.toNat ≤ data.length ∧ (run {} ops).SetsBytes s h p data s' := by
  obtain ⟨l, hgrounded⟩ := exists_grounded hops hs
  obtain ⟨p, hp, hraw, hle, hs'⟩ := EffectState.exists_of_setValue hset
  have hsetting := (EffectState.trail_setValue hgrounded.counter_lt hset).setting
  have hbelow : ∀ d n, s.tree.OffsetIn h d n → ∃ q, s.tree.node? d = some q ∧
      n + q.bytes.toNat ≤ p.bytes.toNat ∧ ∀ buffer : List UInt8, q.bytes.toNat ≤ buffer.length →
        s'.getValue d buffer =
          .ok ((data.drop n).take q.bytes.toNat ++ buffer.drop q.bytes.toNat) := fun d n hn => by
    obtain ⟨q, hq, hwithin⟩ := hgrounded.exists_rawWithin hp hraw hn
    exact ⟨q, hq, hgrounded.getValue_below hp hraw hle hs' hq hwithin⟩
  refine ⟨p, hp, hle, ?_, fun a d => Tree.Under.exists_offsetIn, hbelow, fun a n hn => ?_,
    fun g hg k => ?_, ?_, hsetting.linked, ?_⟩
  · obtain ⟨q, hq, -, hwhole⟩ := hbelow h 0 .refl
    obtain rfl := Option.some.inj (hp.symm.trans hq)
    exact hwhole
  · obtain ⟨q, hq⟩ : ∃ q, s.tree.node? a = some q := by
      have hroot := hgrounded.root?_of_under hn.under
      rw [Tree.root?_of_node? hp] at hroot
      exact (Option.map_eq_some_iff.1 hroot.symm).imp fun _ h => h.1
    refine ⟨q, hq, fun buffer out hout => ?_⟩
    obtain ⟨hrawAbove, -⟩ := (EffectState.exists_rawNode_iff hq buffer.length).1
      ((EffectState.exists_getValue_iff buffer).1 ⟨out, hout⟩)
    obtain ⟨p', hp', hwithin⟩ := hgrounded.exists_rawWithin hq hrawAbove hn
    obtain rfl := Option.some.inj (hp.symm.trans hp')
    exact hgrounded.getValue_above hp hraw hle hs' hq hwithin hout
  · exact hsetting.values_eq (fun i hi => List.mem_singleton.1 hi ▸ hg) k
  · exact fun g => disjoint_of_not_under ⟨ops, rfl⟩ hs
  · have hp' : s'.tree.node? h = some p := by rwa [EffectState.tree, hsetting.linked]
    exact (hgrounded.setting hsetting).exists_resetValue_getValue hp' hraw

/-- Both matrices of a lantern are written at once; one of them and the whole show it. -/
theorem setsBytes_run_lantern : ∃ s s' ops p, lantern.state? = some s ∧
    s.setValue ⟨2⟩ (List.replicate 50 1) = .ok s' ∧
    s'.words ⟨4⟩ = List.replicate 6 0x01010101 ∧
    s'.words ⟨0⟩ = 0 :: List.replicate 12 0x01010101 ++ [13, 14, 15, 16, 17, 18, 19, 20] ∧
    (run {} ops).SetsBytes s ⟨2⟩ p (List.replicate 50 1) s' := by
  obtain ⟨s, hs, s', hs', hwords⟩ : ∃ s ∈ lantern.state?,
      ∃ s' ∈ (s.setValue ⟨2⟩ (List.replicate 50 1)).toOption,
        s'.words ⟨4⟩ = List.replicate 6 0x01010101 ∧
        s'.words ⟨0⟩ = 0 :: List.replicate 12 0x01010101 ++ [13, 14, 15, 16, 17, 18, 19, 20] := by
    decide +kernel
  have hset := Image.eq_ok_of_toOption_eq_some hs'
  obtain ⟨ops, hops, hrun⟩ := WrittenEffect.exists_run hs
  obtain ⟨p, -, -, hsets⟩ := setsBytes_run hops hrun hset
  exact ⟨s, s', ops, p, hs, hset, hwords.1, hwords.2, hsets⟩

end Host

end ShaderEffect
