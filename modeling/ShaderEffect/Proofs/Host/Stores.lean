import Mathlib.Data.List.Induction
import ShaderEffect.Proofs.Host.Call
import ShaderEffect.Proofs.Value.Matrix

/-!
# What writes store

A write is known by what it stores at each place of its parameter (`Write`), and a call by the
writes that its arguments say it makes, one after the other (`EffectState.writes`). After the call
every place holds what was stored there last, and what it held before if nothing was
(`EffectState.valueAt_perform`).
-/

namespace ShaderEffect

/-! ### Setters -/

/-- The word that stores a number in a parameter. -/
def Parameter.wordOf (p : Parameter) (x : Scalar) : UInt32 := x.toWord p.decl.type

/-- The word that a matrix has for a place, if there is a cell: the one of its entry. -/
def Parameter.matrixWord? (p : Parameter) (o : Orientation) (m : Matrix4) (n : Nat) :
    Option UInt32 :=
  let row := n / p.decl.columns.toNat
  let column := n % p.decl.columns.toNat
  if h : row < 4 ∧ column < 4 then
    if row < p.decl.rows.toNat ∧ column < p.decl.columns.toNat then
      some (p.wordOf (.float (o.entry m ⟨row, h.1⟩ ⟨column, h.2⟩)))
    else none
  else none

namespace Setter

/-- The word that a setter of one parameter stores at a place, if it reaches the place: the number,
the first numbers of a list, the components of a vector or of a colour, the entry of a matrix that
goes with the cell, or the word of four bytes. -/
def word? (p : Parameter) (n : Nat) : Setter → Option UInt32
  | .bool value => [p.wordOf (.bool value)][n]?
  | .int value =>
    if p.isScalar then [p.wordOf (.int value)][n]?
    else ((Color.unpack value.toUInt32).toList.map Single.bits)[n]?
  | .float value => [p.wordOf (.float value)][n]?
  | .vector value =>
    if p.packsVector then [Color.pack value.toList][n]?
    else ((value.toList.take p.decl.columns.toNat).map fun x => p.wordOf (.float x))[n]?
  | .matrix o value => p.matrixWord? o value n
  | .bools values => (values.map fun x => p.wordOf (.bool x))[n]?
  | .ints values => (values.map fun x => p.wordOf (.int x))[n]?
  | .floats values => (values.map fun x => p.wordOf (.float x))[n]?
  | .bytes values =>
    match values.drop (4 * n) with
    | a :: b :: c :: d :: _ => some (Word.ofBytes a b c d)
    | _ => none
  | .vectors _ | .matrices .. | .objects _ | .text _ | .texture _ => none

/-- The object that a setter stores in a slot, if it reaches the slot. A text is stored as an object
of its own. -/
def object? (identity n : Nat) : Setter → Option (Option EffectObject)
  | .objects values => values[n]?
  | .text value => [some (.text ⟨identity, value⟩)][n]?
  | .texture value => [value.map .texture][n]?
  | _ => none

/-- What a setter stores at a place. -/
def value? (identity : Nat) (p : Parameter) : (k : Storage) → Nat → Setter → Option k.Value
  | .words, n, setter => setter.word? p n
  | .objects, n, setter => setter.object? identity n

/-- The setters of single parameters that a setter comes to: the elements of an array are set one
by one. -/
def singles (s : EffectState) (h : Handle) : Setter → List (Handle × Setter)
  | .vectors values => (s.firstElements h values.length).zip (values.map .vector)
  | .matrices o values => (s.firstElements h values.length).zip (values.map (.matrix o))
  | setter => [(h, setter)]

end Setter

/-! ### Writes -/

/-- A write to a parameter: what it stores at each place, if it reaches the place. -/
structure Write where
  h : Handle
  value? : Parameter → (k : Storage) → Nat → Option k.Value

/-- The write that a setter of one parameter makes. -/
def Setter.write (identity : Nat) (h : Handle) (setter : Setter) : Write :=
  ⟨h, fun p k n => setter.value? identity p k n⟩

/-- The values of an entry. -/
def BlockEntry.values (entry : BlockEntry) : (k : Storage) → List k.Value
  | .words => entry.words
  | .objects => entry.objects

/-- The write that gives an entry of a block back. -/
def BlockEntry.write (entry : BlockEntry) : Write := ⟨entry.h, fun _ k n => (entry.values k)[n]?⟩

/-- The write that gives a parameter of an effect the value it had when the effect was made. -/
def LinkedEffect.resetWrite (e : LinkedEffect) (h : Handle) : Write :=
  ⟨h, fun p k n => (k.values (e.tree.initial.getD p.root {}))[(k.slice p).start + n]?⟩

/-- The writes of a call, one after the other. A call that is refused writes nothing. -/
def EffectState.writes (s : EffectState) : Operation → List Write
  | .set h setter => match s.set h setter with
    | .ok _ => (setter.singles s h).map fun single => single.2.write s.memory.nextObject single.1
    | .error _ => []
  | .reset h => [s.linked.resetWrite h]
  | .applyBlock i => ((s.block? i).getD []).map BlockEntry.write
  | _ => []

/-- A slice that is written over what it read holds at each place what is new there, and else what
it held. -/
lemma Slice.getElem?_write_read {α : Type} {s : Slice} {values : Array α} {f : List α → List α}
    {new? : Nat → Option α}
    (hf : ∀ old n v, old[n]? = some v → ((f old)[n]?).getD v = (new? n).getD v) (n : Nat) :
    (s.write values (f (s.read values)))[n]? = values[n]?.map fun v =>
      if s.Has n then (new? (n - s.start)).getD v else v := by
  rw [getElem?_write]
  refine Option.map_congr fun v hv => ?_
  split
  · rename_i hn
    refine hf _ _ v ?_
    rw [getElem?_read, if_pos (Nat.sub_lt_left_of_lt_add hn.1 hn.2), Nat.add_sub_cancel' hn.1]
    exact hv
  · rfl

namespace LinkedEffect

variable (e : LinkedEffect)

/-- What a write stores at a place of a block. -/
def stored? (w : Write) (id : Nat) (k : Storage) (n : Nat) : Option k.Value :=
  (e.tree.node? w.h).bind fun p =>
    if e.blockOf? w.h = some id ∧ (k.slice p).Has n then w.value? p k (n - (k.slice p).start)
    else none

/-- What a place of a block holds after writes if it held a value before. -/
def afterWrites (ws : List Write) (id : Nat) (k : Storage) (n : Nat) (v : k.Value) : k.Value :=
  ws.foldl (fun v w => (e.stored? w id k n).getD v) v

/-- From one memory to another writes were carried out, one after the other. -/
def Stores (ws : List Write) (m m' : Memory) : Prop :=
  ∀ id k n, m'.valueAt id k n = (m.valueAt id k n).map (e.afterWrites ws id k n)

variable {e} {m m' m'' : Memory} {ws ws' : List Write} {w : Write}

section

variable (id : Nat) (k : Storage) (n : Nat) (v : k.Value)

@[simp] lemma afterWrites_singleton :
    e.afterWrites [w] id k n v = (e.stored? w id k n).getD v := rfl

@[simp] lemma afterWrites_append : e.afterWrites (ws ++ ws') id k n v =
    e.afterWrites ws' id k n (e.afterWrites ws id k n v) :=
  List.foldl_append

lemma afterWrites_cons : e.afterWrites (w :: ws) id k n v =
    e.afterWrites ws id k n ((e.stored? w id k n).getD v) := rfl

end

lemma stored?_eq_some {p : Parameter} {id : Nat} {k : Storage} {n : Nat} {v : k.Value}
    (hp : e.tree.node? w.h = some p) : e.stored? w id k n = some v ↔
      e.blockOf? w.h = some id ∧ (k.slice p).Has n ∧
        w.value? p k (n - (k.slice p).start) = some v := by
  rw [stored?, hp, Option.bind_some]
  split
  · rename_i h
    simp [h]
  · rename_i h
    constructor
    · intro hv
      cases hv
    · intro hv
      exact absurd ⟨hv.1, hv.2.1⟩ h

/-- A place holds what the last write stored that stored something there, or what it held. -/
lemma afterWrites_cases (ws : List Write) (id : Nat) (k : Storage) (n : Nat) (v : k.Value) :
    (∃ before w after v', ws = before ++ w :: after ∧ e.stored? w id k n = some v' ∧
      (∀ w' ∈ after, e.stored? w' id k n = none) ∧ e.afterWrites ws id k n v = v') ∨
    (∀ w ∈ ws, e.stored? w id k n = none) ∧ e.afterWrites ws id k n v = v := by
  induction ws using List.reverseRecOn with
  | nil => exact .inr ⟨nofun, rfl⟩
  | append_singleton ws w ih =>
    rw [afterWrites_append, afterWrites_singleton]
    cases hw : e.stored? w id k n with
    | some v' => exact .inl ⟨ws, w, [], v', rfl, hw, nofun, rfl⟩
    | none =>
      rw [Option.getD_none]
      rcases ih with ⟨before, w', after, v', rfl, hw', hafter, hv⟩ | ⟨hnone, hv⟩
      · refine .inl ⟨before, w', after ++ [w], v', by simp, hw', ?_, hv⟩
        simpa [or_imp, forall_and, hw] using hafter
      · refine .inr ⟨?_, hv⟩
        simpa [or_imp, forall_and, hw] using hnone

/-- Writes that store nothing at a place leave what it holds. -/
lemma map_afterWrites_of_forall {id : Nat} {k : Storage} {n : Nat}
    (h : ∀ w ∈ ws, e.stored? w id k n = none) (held : Option k.Value) :
    held.map (e.afterWrites ws id k n) = held := by
  refine (Option.map_congr fun v _ => ?_).trans Option.map_id'
  rcases e.afterWrites_cases ws id k n v with ⟨before, w, after, v', rfl, hw, -⟩ | ⟨-, hv⟩
  · rw [h w (by simp)] at hw
    cases hw
  · exact hv

namespace Stores

lemma refl (m : Memory) : e.Stores [] m m :=
  fun _ _ _ => (map_afterWrites_of_forall (List.forall_mem_nil _) _).symm

lemma trans (h : e.Stores ws m m') (h' : e.Stores ws' m' m'') : e.Stores (ws ++ ws') m m'' := by
  intro id k n
  rw [h' id k n, h id k n, Option.map_map]
  congr 1
  funext v
  simp

/-- What is stored in the block of one parameter, and in no other. -/
lemma of_evolves {c : Nat} (hevolves : Memory.Evolves c (e.BlocksOf [w.h]) m m')
    (hself : ∀ p id, e.tree.node? w.h = some p → e.blockOf? w.h = some id →
      id < m.blocks.size → ∀ (k : Storage) n, m'.valueAt id k n = (m.valueAt id k n).map fun v =>
        if (k.slice p).Has n then (w.value? p k (n - (k.slice p).start)).getD v else v) :
    e.Stores [w] m m' := by
  intro id k n
  by_cases hid : e.blockOf? w.h = some id
  · obtain ⟨p, hp, -⟩ := e.blockOf?_eq_some.1 hid
    by_cases hlt : id < m.blocks.size
    · rw [hself p id hp hid hlt]
      congr 1
      funext v
      simp only [afterWrites_singleton, stored?, hp, hid, Option.bind_some, true_and]
      split <;> rfl
    · rw [not_lt] at hlt
      rw [Memory.valueAt_of_size_le hlt, Memory.valueAt_of_size_le (hevolves.size_blocks ▸ hlt),
        Option.map_none]
  · have hsame : m'.block id = m.block id :=
      hevolves.block_eq fun h => hid (e.blocksOf_singleton.1 h)
    have hnone : e.stored? w id k n = none := by
      rw [stored?]
      cases e.tree.node? w.h <;> simp [hid]
    rw [map_afterWrites_of_forall (List.forall_mem_singleton.2 hnone), Memory.valueAt,
      Memory.valueAt, hsame]

end Stores

/-- Words that are written are stored. -/
lemma stores_writeWords {f : List UInt32 → List UInt32} (hc : e.counter < m.counters.size)
    (hwords : ∀ p, e.tree.node? w.h = some p → ∀ words n v, words[n]? = some v →
      ((f words)[n]?).getD v = (w.value? p .words n).getD v)
    (hobjects : ∀ p n, w.value? p .objects n = none) :
    e.Stores [w] m (e.writeWords m w.h f) := by
  refine .of_evolves (writes_writeWords hc).toEvolves fun p id hp hid hlt k n => ?_
  rw [Memory.valueAt, Memory.valueAt, writeWords, toContents_block_writeBlock hp hid hlt]
  cases k with
  | words => exact Slice.getElem?_write_read (hwords p hp) n
  | objects =>
    simp only [hobjects, Option.getD_none, ite_self, Option.map_id']
    rfl

/-- Objects that are written are stored. -/
lemma stores_writeObjects {f : List (Option EffectObject) → List (Option EffectObject)}
    (hc : e.counter < m.counters.size) (hwords : ∀ p n, w.value? p .words n = none)
    (hobjects : ∀ p objects n v, objects[n]? = some v →
      ((f objects)[n]?).getD v = (w.value? p .objects n).getD v) :
    e.Stores [w] m (e.writeObjects m w.h f) := by
  refine .of_evolves (writes_writeObjects hc).toEvolves fun p id hp hid hlt k n => ?_
  rw [Memory.valueAt, Memory.valueAt, writeObjects, toContents_block_writeBlock hp hid hlt]
  cases k with
  | words =>
    simp only [hwords, Option.getD_none, ite_self, Option.map_id']
    rfl
  | objects => exact Slice.getElem?_write_read (hobjects p) n

end LinkedEffect

/-! ### What setters write over words -/

section Words

variable {words : List UInt32} {n : Nat} {v : UInt32}

lemma getD_overlay {α : Type} {new old : List α} {n : Nat} {v : α} (hv : old[n]? = some v) :
    ((overlay new old)[n]?).getD v = (new[n]?).getD v := by
  have hn : n < old.length := (List.getElem?_eq_some_iff.1 hv).1
  rw [getElem?_overlay]
  split
  · rfl
  · rename_i hnew
    rw [hv, List.getElem?_eq_none (by omega), Option.getD_some, Option.getD_none]

lemma getD_replaceFirst (word : UInt32) (hv : words[n]? = some v) :
    ((EffectState.replaceFirst word words)[n]?).getD v = ([word][n]?).getD v := by
  cases words with
  | nil => cases hv
  | cons first rest =>
    cases n with
    | zero => rfl
    | succ n => simpa [EffectState.replaceFirst] using congrArg (Option.getD · v) hv

lemma getElem?_ofList (bytes : List UInt8) (n : Nat) : (Word.ofList bytes)[n]? =
    match bytes.drop (4 * n) with
    | a :: b :: c :: d :: _ => some (Word.ofBytes a b c d)
    | _ => none := by
  induction n generalizing bytes with
  | zero =>
    rcases bytes with _ | ⟨a, _ | ⟨b, _ | ⟨c, _ | ⟨d, rest⟩⟩⟩⟩ <;> rfl
  | succ n ih =>
    rcases bytes with _ | ⟨a, _ | ⟨b, _ | ⟨c, _ | ⟨d, rest⟩⟩⟩⟩
    case cons.cons.cons.cons => exact ih rest
    all_goals simp [Word.ofList, Nat.mul_succ]

/-- The cell at a place is in the row and the column that the place is in. -/
lemma Declaration.cellPlace_eq_iff {d : Declaration} {row column : Fin 4}
    (hcolumn : column.val < d.columns.toNat) : d.cellPlace row column = n ↔
      row.val = n / d.columns.toNat ∧ column.val = n % d.columns.toNat := by
  have hpos : 0 < d.columns.toNat := Nat.zero_lt_of_lt hcolumn
  rw [cellPlace]
  constructor
  · rintro rfl
    rw [Nat.mul_comm, Nat.mul_add_div hpos, Nat.mul_add_mod, Nat.div_eq_of_lt hcolumn,
      Nat.mod_eq_of_lt hcolumn, Nat.add_zero]
    exact ⟨rfl, rfl⟩
  · rintro ⟨hrow, hcolumn⟩
    rw [hrow, hcolumn, Nat.div_add_mod']

lemma getD_writeMatrix (p : Parameter) (o : Orientation) (m : Matrix4) (hv : words[n]? = some v) :
    ((p.decl.writeMatrix o m words)[n]?).getD v = (p.matrixWord? o m n).getD v := by
  have hn : n < words.length := (List.getElem?_eq_some_iff.1 hv).1
  simp only [Parameter.matrixWord?]
  by_cases hcell : ∃ row column : Fin 4, p.decl.hasCell row column = true ∧
      p.decl.cellPlace row column = n
  · obtain ⟨row, column, hcell, rfl⟩ := hcell
    have hshape := hcell
    simp only [Declaration.hasCell, Bool.and_eq_true, decide_eq_true_eq] at hshape
    obtain ⟨hrow, hcolumn⟩ := (Declaration.cellPlace_eq_iff hshape.2).1 rfl
    have hlt : p.decl.cellPlace row column / p.decl.columns.toNat < 4 ∧
        p.decl.cellPlace row column % p.decl.columns.toNat < 4 :=
      ⟨hrow ▸ row.isLt, hcolumn ▸ column.isLt⟩
    have hrow' : (⟨_, hlt.1⟩ : Fin 4) = row := Fin.ext hrow.symm
    have hcolumn' : (⟨_, hlt.2⟩ : Fin 4) = column := Fin.ext hcolumn.symm
    rw [p.decl.getElem?_writeMatrix o m hcell hn, dif_pos hlt, hrow', hcolumn',
      if_pos (by rwa [← hrow, ← hcolumn])]
    rfl
  · have hnone : ∀ c ∈ p.decl.matrixCells, p.decl.cellPlace c.1 c.2 ≠ n := by
      intro c hc hplace
      exact hcell ⟨c.1, c.2, (p.decl.mem_matrixCells c.1 c.2).1 hc, hplace⟩
    rw [Declaration.writeMatrix, Declaration.getElem?_foldl_set_of_forall_ne
      (fun c => p.decl.cellPlace c.1 c.2)
      (fun c => Scalar.toWord p.decl.type (.float (o.entry m c.1 c.2))) hnone, hv]
    split
    · rename_i hlt
      rw [if_neg]
      · rfl
      · intro hshape
        refine hcell ⟨⟨_, hlt.1⟩, ⟨_, hlt.2⟩, ?_, ?_⟩
        · simpa [Declaration.hasCell] using hshape
        · exact (Declaration.cellPlace_eq_iff hshape.2).2 ⟨rfl, rfl⟩
    · rfl

end Words

lemma Setter.object?_of_isNumeric {setter : Setter} (h : setter.isNumeric = true)
    (identity n : Nat) : setter.object? identity n = none := by
  cases setter with
  | objects values | text value | texture value => cases h
  | _ => rfl

/-! ### Calls -/

namespace EffectState

variable {s s' : EffectState} {h : Handle} {identity : Nat}

lemma stores_writeIf (setter : Setter) {accepts : Parameter → Bool} {error : CallError}
    {write : Parameter → List UInt32 → List UInt32}
    (hc : s.linked.counter < s.memory.counters.size) (hnumeric : setter.isNumeric = true)
    (hwrite : ∀ p, s.tree.node? h = some p → accepts p = true → ∀ words n v,
      words[n]? = some v → ((write p words)[n]?).getD v = (setter.word? p n).getD v)
    (hs : s.writeIf h accepts error write = .ok s') :
    s.linked.Stores [setter.write identity h] s.memory s'.memory := by
  obtain ⟨p, hp, haccepts, rfl⟩ := exists_of_writeIf hs
  rw [memory_writeWords]
  refine LinkedEffect.stores_writeWords (w := setter.write identity h) hc (fun p' hp' => ?_)
    fun p n => Setter.object?_of_isNumeric hnumeric identity n
  obtain rfl := Option.some.inj (hp.symm.trans hp')
  exact hwrite p hp haccepts

/-- To write several parameters one after the other is to carry out all of the writes. -/
lemma stores_writeEach {α : Type} {write : EffectState → Handle → α → Except CallError EffectState}
    {setter : α → Setter}
    (hwrite : ∀ (s s' : EffectState) (h : Handle) (a : α),
      s.linked.counter < s.memory.counters.size → write s h a = .ok s' →
        Trail s [h] [h] s' ∧
          s.linked.Stores [(setter a).write identity h] s.memory s'.memory)
    {pairs : List (Handle × α)} (hc : s.linked.counter < s.memory.counters.size)
    (hs : (writeEach write s pairs).toExcept = .ok s') :
    s.linked.Stores (pairs.map fun pair => (setter pair.2).write identity pair.1) s.memory
      s'.memory := by
  induction pairs generalizing s with
  | nil =>
    cases hs
    exact .refl _
  | cons pair rest ih =>
    obtain ⟨h, a⟩ := pair
    rw [writeEach] at hs
    split at hs
    · rename_i between hfirst
      obtain ⟨htrail, hstores⟩ := hwrite s between h a hc hfirst
      have hrest := ih (htrail.counter_lt hc) hs
      rw [htrail.setting.linked] at hrest
      exact hstores.trans hrest
    · cases hs

lemma stores_setVector {value : Float4} (hc : s.linked.counter < s.memory.counters.size)
    (hs : s.setVector h value = .ok s') :
    s.linked.Stores [(Setter.vector value).write identity h] s.memory s'.memory := by
  refine stores_writeIf _ hc rfl (fun p _ _ words n v hv => ?_) hs
  rw [Setter.word?]
  split <;> exact getD_overlay hv

lemma stores_setVectorArray {values : List Float4} (hc : s.linked.counter < s.memory.counters.size)
    (hs : s.setVectorArray h values = .ok s') :
    s.linked.Stores (((Setter.vectors values).singles s h).map fun single =>
      single.2.write identity single.1) s.memory s'.memory := by
  rw [setVectorArray, writeVectorArray] at hs
  split at hs
  · cases hs
  · rename_i elements helements
    obtain rfl := eq_firstElements helements
    rw [Setter.singles, List.zip_map_right, List.map_map]
    exact stores_writeEach (fun _ _ _ _ hc hs => ⟨trail_writeIf hc hs, stores_setVector hc hs⟩)
      hc hs

lemma stores_setMatrixArray {o : Orientation} {values : List Matrix4}
    (hc : s.linked.counter < s.memory.counters.size)
    (hs : s.setMatrixArray o h values = .ok s') :
    s.linked.Stores (((Setter.matrices o values).singles s h).map fun single =>
      single.2.write identity single.1) s.memory s'.memory := by
  rw [setMatrixArray, writeMatrixArray] at hs
  split at hs
  · cases hs
  · rename_i elements helements
    obtain rfl := eq_firstElements helements
    rw [Setter.singles, List.zip_map_right, List.map_map]
    exact stores_writeEach (fun _ _ _ m hc hs => ⟨trail_writeIf hc hs,
      stores_writeIf (.matrix o m) hc rfl (fun p _ _ _ _ _ => getD_writeMatrix p o m) hs⟩)
      hc hs

lemma stores_setInt {value : Int32} (hc : s.linked.counter < s.memory.counters.size)
    (hs : s.setInt h value = .ok s') :
    s.linked.Stores [(Setter.int value).write identity h] s.memory s'.memory := by
  rw [setInt] at hs
  split at hs
  · refine stores_writeIf _ hc rfl (fun p _ hscalar words n v hv => ?_) hs
    rw [Setter.word?, if_pos hscalar]
    exact getD_replaceFirst _ hv
  · rename_i hscalar
    refine stores_writeIf _ hc rfl (fun p hp _ words n v hv => ?_) hs
    rw [isScalarAt, hp] at hscalar
    rw [Setter.word?, if_neg hscalar]
    exact getD_overlay hv

lemma getD_replaceSlot {objects : List (Option EffectObject)} {n : Nat} {v : Option EffectObject}
    (object : Option EffectObject) (hv : objects[n]? = some v) :
    ((replaceSlot object objects)[n]?).getD v = ([object][n]?).getD v := by
  cases objects with
  | nil => cases hv
  | cons first rest =>
    cases n with
    | zero => rfl
    | succ n => simpa [replaceSlot] using congrArg (Option.getD · v) hv

lemma stores_writeObjects (setter : Setter)
    {f : List (Option EffectObject) → List (Option EffectObject)}
    (hc : s.linked.counter < s.memory.counters.size) (hwords : ∀ p n, setter.word? p n = none)
    (hobjects : ∀ objects n v, objects[n]? = some v →
      ((f objects)[n]?).getD v = (setter.object? identity n).getD v) :
    s.linked.Stores [setter.write identity h] s.memory (s.writeObjects h f).memory := by
  rw [writeObjects, memory_record]
  exact LinkedEffect.stores_writeObjects (w := setter.write identity h) hc hwords fun _ => hobjects

/-- Every setter that succeeds stores what its arguments say. -/
lemma stores_set {setter : Setter} (hc : s.linked.counter < s.memory.counters.size)
    (hs : s.set h setter = .ok s') : s.linked.Stores ((setter.singles s h).map fun single =>
      single.2.write s.memory.nextObject single.1) s.memory s'.memory := by
  cases setter with
  | bool value | float value =>
    exact stores_writeIf _ hc rfl (fun _ _ _ _ _ _ hv => getD_replaceFirst _ hv) hs
  | int value => exact stores_setInt hc hs
  | vector value => exact stores_setVector hc hs
  | vectors values => exact stores_setVectorArray hc hs
  | matrix o value =>
    exact stores_writeIf _ hc rfl (fun p _ _ _ _ _ hv => getD_writeMatrix p o value hv) hs
  | matrices o values => exact stores_setMatrixArray hc hs
  | bools values | ints values | floats values =>
    exact stores_writeIf _ hc rfl (fun _ _ _ _ _ _ hv => getD_overlay hv) hs
  | bytes values =>
    rw [eq_writeWords_of_setValue hs, memory_writeWords]
    refine LinkedEffect.stores_writeWords (w := (Setter.bytes values).write _ h) hc
      (fun p _ words n v hv => ?_) fun _ _ => rfl
    exact (getD_overlay hv).trans (congrArg (Option.getD · v) (getElem?_ofList values n))
  | objects values =>
    rw [eq_writeObjects_of_setObjects hs]
    exact stores_writeObjects _ hc (fun _ _ => rfl) fun _ _ _ _ => rfl
  | text value =>
    rw [eq_writeObjects_of_setSingle hs]
    -- The identity that is taken from memory changes no block.
    exact stores_writeObjects (s := { s with memory := (s.memory.share value).2 }) (.text value) hc
      (fun _ _ => rfl) fun _ _ _ hv => getD_replaceSlot _ hv
  | texture value =>
    rw [eq_writeObjects_of_setSingle hs]
    exact stores_writeObjects _ hc (fun _ _ => rfl) fun _ _ _ hv => getD_replaceSlot _ hv

lemma stores_resetValue (hc : s.linked.counter < s.memory.counters.size)
    (hs : s.resetValue h = .ok s') :
    s.linked.Stores [s.linked.resetWrite h] s.memory s'.memory := by
  obtain ⟨p, -, hs⟩ := exists_of_bind_eq_ok hs
  cases hs
  rw [memory_record]
  show s.linked.Stores _ _ (s.linked.resetValue s.memory h)
  refine .of_evolves (w := s.linked.resetWrite h) (LinkedEffect.writes_resetValue hc).toEvolves
    fun p id hp hid hlt k n => ?_
  have hread : ∀ {α : Type} (slice : Slice) (values initial : Array α),
      (slice.write values (slice.read initial))[n]? = values[n]?.map fun v =>
        if slice.Has n then (initial[slice.start + (n - slice.start)]?).getD v else v := by
    intro α slice values initial
    rw [Slice.getElem?_write]
    refine Option.map_congr fun v _ => ?_
    split
    · rename_i hn
      rw [Slice.getElem?_read, if_pos (Nat.sub_lt_left_of_lt_add hn.1 hn.2)]
    · rfl
  rw [Memory.valueAt, Memory.valueAt, LinkedEffect.resetValue,
    LinkedEffect.toContents_block_writeBlock (h := h) hp hid hlt]
  cases k with
  | words => exact hread p.words _ _
  | objects => exact hread p.objects _ _

/-- An entry that is applied writes all its values. -/
lemma toContents_block_applyEntry {entry : BlockEntry} {p : Parameter} {id : Nat}
    (hp : s.tree.node? entry.h = some p) (hid : s.linked.blockOf? entry.h = some id)
    (hlt : id < s.memory.blocks.size) :
    ((s.applyEntry entry).memory.block id).toContents =
      { words := p.words.write (s.memory.block id).words entry.words
        objects := p.objects.write (s.memory.block id).objects entry.objects } := by
  -- Values that there are none of need not be written.
  have hnil : ∀ {α : Type} (slice : Slice) (values : Array α), slice.write values [] = values :=
    fun slice values => by rw [Slice.write, List.take_nil, Slice.overwriteFrom]
  have hwords : ∀ m : Memory, id < m.blocks.size →
      ((if entry.words.isEmpty then m else s.linked.writeWords m entry.h fun _ => entry.words).block
        id).toContents = { (m.block id).toContents with
          words := p.words.write (m.block id).words entry.words } := fun m hm => by
    split
    · rename_i hempty
      rw [List.isEmpty_iff.1 hempty, hnil]
    · exact LinkedEffect.toContents_block_writeBlock hp hid hm _
  have hobjects : ∀ m : Memory, id < m.blocks.size →
      ((if entry.objects.isEmpty then m else
          s.linked.writeObjects m entry.h fun _ => entry.objects).block
        id).toContents = { (m.block id).toContents with
          objects := p.objects.write (m.block id).objects entry.objects } := fun m hm => by
    split
    · rename_i hempty
      rw [List.isEmpty_iff.1 hempty, hnil]
    · exact LinkedEffect.toContents_block_writeBlock hp hid hm _
  have hsize : (if entry.words.isEmpty then s.memory else
      s.linked.writeWords s.memory entry.h fun _ => entry.words).blocks.size =
        s.memory.blocks.size := by
    split
    · rfl
    · simp [LinkedEffect.writeWords, LinkedEffect.writeBlock, hp, hid]
  rw [applyEntry, memory_record]
  dsimp only
  rw [hobjects _ (hsize ▸ hlt), hwords _ hlt]

lemma stores_applyEntry (entry : BlockEntry) (hc : s.linked.counter < s.memory.counters.size) :
    s.linked.Stores [entry.write] s.memory (s.applyEntry entry).memory := by
  have hsub : entry.targets ⊆ [entry.h] := by simpa using BlockEntry.targets_subset [entry]
  refine .of_evolves (w := entry.write) ((trail_applyEntry entry hc).setting.writes.toEvolves.mono
    fun id hid => hid.imp fun _ hh => hh.imp_left (@hsub _)) fun p id hp hid hlt k n => ?_
  rw [Memory.valueAt, Memory.valueAt, toContents_block_applyEntry hp hid hlt]
  cases k with
  | words => exact Slice.getElem?_write ..
  | objects => exact Slice.getElem?_write ..

lemma stores_foldl_applyEntry (block : ParameterBlock)
    (hc : s.linked.counter < s.memory.counters.size) :
    s.linked.Stores (block.map BlockEntry.write) s.memory (block.foldl applyEntry s).memory := by
  induction block generalizing s with
  | nil => exact .refl _
  | cons entry rest ih =>
    have htrail := trail_applyEntry entry hc
    have hrest := ih (htrail.counter_lt hc)
    rw [htrail.setting.linked] at hrest
    exact (stores_applyEntry entry hc).trans hrest

/-- After a call a place holds what the call stored there last, and what it held if the call stored
nothing there; what passes compute is not stored by a call. -/
theorem valueAt_perform (he : s.linked.Proper) (hc : s.linked.counter < s.memory.counters.size)
    (devices : Nat → Device) (op : Operation) {id : Nat} (hid : ¬s.linked.Computed id)
    (k : Storage) (n : Nat) : (s.perform devices op).state.memory.valueAt id k n =
      (s.memory.valueAt id k n).map (s.linked.afterWrites (s.writes op) id k n) := by
  have hnone : s.written op = [] → (s.perform devices op).state.memory.valueAt id k n =
      (s.memory.valueAt id k n).map (s.linked.afterWrites [] id k n) := by
    intro hwritten
    refine Eq.trans (((leaves_perform he hc devices op).within id k n).resolve_right ?_)
      (LinkedEffect.map_afterWrites_of_forall (List.forall_mem_nil _) _).symm
    rintro (⟨h, hh, -⟩ | ⟨-, hcomputed⟩)
    · rw [hwritten] at hh
      cases hh
    · exact hid hcomputed
  cases op with
  | set h setter =>
    rw [writes]
    cases hset : s.set h setter with
    | ok s' =>
      rw [perform, hset]
      exact stores_set hc hset id k n
    | error e => exact hnone (by rw [written, hset])
  | reset h =>
    rw [perform]
    cases hset : s.resetValue h with
    | ok s' => exact stores_resetValue hc hset id k n
    | error e =>
      -- There is no such parameter, so nothing is stored.
      have hnode : s.tree.node? h = none := by
        cases hp : s.tree.node? h with
        | none => rfl
        | some p => simp [resetValue, node, hp] at hset
      have hstored : s.linked.stored? (s.linked.resetWrite h) id k n = none := by
        simp [LinkedEffect.stored?, LinkedEffect.resetWrite, hnode]
      exact (LinkedEffect.map_afterWrites_of_forall (List.forall_mem_singleton.2 hstored) _).symm
  | applyBlock i =>
    rw [writes, perform]
    cases hset : s.applyBlock i with
    | ok s' =>
      obtain ⟨block, hblock, rfl⟩ := applyBlock_eq_ok.1 hset
      rw [hblock]
      exact stores_foldl_applyEntry block hc id k n
    | error e =>
      rw [block?_of_applyBlock_eq_error hset]
      exact (LinkedEffect.map_afterWrites_of_forall (List.forall_mem_nil _) _).symm
  | _ => exact hnone rfl

end EffectState

end ShaderEffect
