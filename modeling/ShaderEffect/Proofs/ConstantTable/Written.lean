import ShaderEffect.ConstantTable.Decode
import ShaderEffect.ConstantTable.Encode
import ShaderEffect.Proofs.Program.Answers

/-!
# When written constant tables are read

A written table gives back all its entries, unless an entry has a shape of a class or a type that
has no meaning: such a table is refused (`answersIf_decode`).
-/

namespace ShaderEffect

/-! ### What stands in data -/

@[simp] lemma Word.length_halfBytes (w : UInt16) : (Word.halfBytes w).length = 2 := rfl

namespace Bytes

variable {data : Bytes} {position : Nat}

lemma Holds.half {w : UInt16} (h : data.Holds position (Word.halfBytes w)) (field : String) :
    data.half position field = .ok w := by
  have hle : position + 2 ≤ data.size := h.le_size
  have hbyte : ∀ (i : Nat) (hi : i < 2), data[position + i] = (Word.halfBytes w)[i] :=
    fun i hi => h.getElem hi (by omega)
  rw [Bytes.half, dif_pos hle, hbyte 1 (by decide),
    show data[position] = (Word.halfBytes w)[0] from hbyte 0 (by decide)]
  exact congrArg _ (Word.ofHalf_halfBytes w)

lemma toList_extract_size (data : Bytes) (start : Nat) :
    (data.extract start data.size).toList = data.toList.drop start := by
  rw [Array.toList_extract, List.extract_eq_take_drop, List.take_of_length_le]
  simp

/-- A text without NUL is found up to the zero byte after it. -/
lemma Holds.text {text : String} (h : data.Holds position (text.toUTF8.data.toList ++ [0]))
    (hplain : '\u0000' ∉ text.toList) (field : String) : data.text position field = .ok text := by
  have hle := h.le_size
  obtain ⟨front, back, heq, rfl⟩ := h
  have htail : (data.extract front.length data.size).toList =
      text.toUTF8.data.toList ++ 0 :: back := by
    rw [toList_extract_size, heq, List.append_assoc, List.drop_left, List.append_assoc]
    rfl
  have hzero : (data.extract front.length data.size).contains 0 = true := by
    rw [← Array.contains_toList, htail]
    simp
  rw [Bytes.text, if_pos (by omega)]
  simp only [hzero, if_true, Bytes.beforeZero, htail, Image.takeWhile_toUTF8 hplain,
    Image.utf8?_toUTF8]

end Bytes

/-! ### Shapes -/

/-- The shape that numbers tell, if they have a meaning. -/
def StoredShape.shape? (s : StoredShape) : Option ConstantShape := do
  let cls ← ParameterClass.ofNumber? s.cls.toNat
  let type ← ParameterType.ofNumber? s.type.toNat
  return ⟨cls, type, s.rows.toNat, s.columns.toNat, s.elements.toNat⟩

/-- The constant that a table tells of an entry. -/
def ConstantEntry.constant (e : ConstantEntry) : Constant where
  name := e.name
  set := e.set
  index := e.index.toNat
  count := e.count.toNat
  shape := e.shape.bind StoredShape.shape?

/-- The shape of an entry, if it has one, has a class and a type with a meaning. -/
def ConstantEntry.HasMeaning (e : ConstantEntry) : Prop := ∀ s ∈ e.shape, s.shape?.isSome

instance (e : ConstantEntry) : Decidable e.HasMeaning :=
  inferInstanceAs (Decidable (∀ s ∈ e.shape, s.shape?.isSome))

namespace ConstantTable

open Word

variable {data : Bytes}

lemma answersIf_readShape {s : StoredShape} {offset : Nat} (hoffset : offset ≠ 0)
    (h : data.Holds offset (shapeBytes s)) :
    AnswersIf (readShape data offset) (s.shape?.isSome) s.shape? := by
  have hsize : offset + shapeLength ≤ data.size := h.le_size
  obtain ⟨hcls, htype, hrows, hcolumns, helements, -⟩ :
      data.Holds offset (halfBytes s.cls) ∧ data.Holds (offset + 2) (halfBytes s.type) ∧
      data.Holds (offset + 4) (halfBytes s.rows) ∧ data.Holds (offset + 6) (halfBytes s.columns) ∧
      data.Holds (offset + 8) (halfBytes s.elements) ∧
      data.Holds (offset + 10) (halfBytes 0 ++ bytes 0) := by
    simpa [shapeBytes, Bytes.holds_append, and_assoc, Nat.add_assoc] using h
  unfold readShape StoredShape.shape?
  rw [if_neg hoffset]
  dsimp only
  rw [if_neg (Nat.not_lt.2 hsize)]
  refine .bind_ok (hcls.half _) <| .bind_ok (htype.half _) ?_
  cases ParameterClass.ofNumber? s.cls.toNat with
  | none => exact .of_error rfl (by simp)
  | some cls =>
    cases ParameterType.ofNumber? s.type.toNat with
    | none => exact .of_error rfl (by simp)
    | some type =>
      refine AnswersIf.mono (.bind_ok (hrows.half _) <| .bind_ok (hcolumns.half _) <|
        .bind_ok (helements.half _) (.of_eq_ok rfl)) ?_
      exact iff_of_true trivial rfl

/-! ### Entries -/

lemma ofNumber?_set (set : RegisterSet) :
    RegisterSet.ofNumber? (UInt16.ofNat set.number).toNat = some set := by
  cases set <;> rfl

@[simp] lemma length_shapeBytes (s : StoredShape) : (shapeBytes s).length = shapeLength := rfl

/-- Where the shape of an entry is said to stand. -/
def shapePointer (e : ConstantEntry) (shapeOffset : Nat) : UInt32 :=
  if e.shape.isSome then UInt32.ofNat shapeOffset else 0

lemma holds_recordBytes_cons {e : ConstantEntry} {rest : List ConstantEntry}
    {base shapeOffset nameOffset : Nat}
    (h : data.Holds base (recordBytes (e :: rest) shapeOffset nameOffset)) :
    data.Holds base (bytes (UInt32.ofNat nameOffset)) ∧
    data.Holds (base + 4) (halfBytes (UInt16.ofNat e.set.number)) ∧
    data.Holds (base + 6) (halfBytes e.index) ∧
    data.Holds (base + 8) (halfBytes e.count) ∧
    data.Holds (base + 12) (bytes (shapePointer e shapeOffset)) ∧
    data.Holds (base + recordLength)
      (recordBytes rest (if e.shape.isSome then shapeOffset + 16 else shapeOffset)
        (nameOffset + (e.nameBytes.length + 1))) := by
  simp only [recordBytes, Bytes.holds_append, and_assoc, Nat.add_assoc, length_bytes,
    length_halfBytes, List.length_append] at h
  obtain ⟨hname, hset, hindex, hcount, -, hshape, -, hrest⟩ := h
  exact ⟨hname, hset, hindex, hcount, hshape, hrest⟩

/-- An entry is read if its shape has a meaning. -/
lemma answersIf_readConstant {e : ConstantEntry} {rest : List ConstantEntry}
    {base shapeOffset nameOffset : Nat} (hplain : '\u0000' ∉ e.name.toList)
    (hpos : shapeOffset ≠ 0) (hsize : data.size < 2 ^ 32)
    (hrecord : data.Holds base (recordBytes (e :: rest) shapeOffset nameOffset))
    (hshape : ∀ s ∈ e.shape, data.Holds shapeOffset (shapeBytes s))
    (hname : data.Holds nameOffset (e.nameBytes ++ [0])) :
    AnswersIf (readConstant data base) e.HasMeaning e.constant := by
  obtain ⟨hnameAt, hset, hindex, hcount, hshapeAt, -⟩ := holds_recordBytes_cons hrecord
  have hnameOffset : (UInt32.ofNat nameOffset).toNat = nameOffset := by
    have hle := hname.le_size
    exact Image.toNat_ofNat_of_lt (by omega)
  have hread : AnswersIf (readShape data (shapePointer e shapeOffset).toNat) e.HasMeaning
      e.constant.shape := by
    unfold shapePointer ConstantEntry.HasMeaning ConstantEntry.constant
    cases hs : e.shape with
    | none => exact (AnswersIf.of_eq_ok rfl).mono (by simp)
    | some s =>
      have hholds := hshape s hs
      have hle := hholds.le_size
      have hoffset : (UInt32.ofNat shapeOffset).toNat = shapeOffset :=
        Image.toNat_ofNat_of_lt (by omega)
      simp only [Option.isSome_some, if_true, hoffset]
      exact (answersIf_readShape hpos hholds).mono (by simp)
  unfold readConstant
  refine .bind_ok (hnameAt.word _) <| .bind_ok (hset.half _) <| .bind_ok (hindex.half _) <|
    .bind_ok (hcount.half _) <| .bind_ok (hshapeAt.word _) ?_
  rw [ofNumber?_set, hnameOffset]
  refine .bind_ok (hname.text hplain _) ?_
  refine AnswersIf.mono (hread.bind fun _ => .of_eq_ok rfl) ?_
  rw [and_true]

/-- The entries of a table are read if all their shapes have a meaning. -/
lemma answersIf_readConstants (entries : List ConstantEntry) {base shapeOffset nameOffset : Nat}
    (hplain : ∀ e ∈ entries, '\u0000' ∉ e.name.toList) (hpos : shapeOffset ≠ 0)
    (hsize : data.size < 2 ^ 32)
    (hrecords : data.Holds base (recordBytes entries shapeOffset nameOffset))
    (hshapes : data.Holds shapeOffset ((entries.filterMap (·.shape)).flatMap shapeBytes))
    (hnames : data.Holds nameOffset (entries.flatMap fun e => e.nameBytes ++ [0])) :
    AnswersIf (readConstants data entries.length base) (∀ e ∈ entries, e.HasMeaning)
      (entries.map ConstantEntry.constant) := by
  induction entries generalizing base shapeOffset nameOffset with
  | nil => exact (AnswersIf.of_eq_ok rfl).mono (by simp)
  | cons e rest ih =>
    rw [List.forall_mem_cons] at hplain
    rw [List.flatMap_cons, Bytes.holds_append, List.length_append] at hnames
    obtain ⟨-, -, -, -, -, hrest⟩ := holds_recordBytes_cons hrecords
    -- the shape of the entry, if it has one, comes before those of the rest
    obtain ⟨hshape, hshapes', hpos'⟩ : (∀ s ∈ e.shape, data.Holds shapeOffset (shapeBytes s)) ∧
        data.Holds (if e.shape.isSome then shapeOffset + 16 else shapeOffset)
          ((rest.filterMap (·.shape)).flatMap shapeBytes) ∧
        (if e.shape.isSome then shapeOffset + 16 else shapeOffset) ≠ 0 := by
      cases hs : e.shape with
      | none =>
        rw [List.filterMap_cons_none hs] at hshapes
        simpa using ⟨hshapes, hpos⟩
      | some s =>
        rw [List.filterMap_cons_some hs, List.flatMap_cons, Bytes.holds_append] at hshapes
        simpa [shapeLength] using hshapes
    have hfirst := answersIf_readConstant hplain.1 hpos hsize hrecords hshape hnames.1
    refine AnswersIf.mono (hfirst.bind fun _ =>
      (ih hplain.2 hpos' hrest hshapes' hnames.2).bind fun _ => .of_eq_ok rfl) ?_
    rw [List.forall_mem_cons, and_true]

/-! ### Tables -/

/-- The table that is read where one was written. -/
def written (entries : List ConstantEntry) : ConstantTable :=
  ⟨none, some "vs_2_0", entries.map ConstantEntry.constant⟩

lemma length_recordBytes (entries : List ConstantEntry) (shapeOffset nameOffset : Nat) :
    (recordBytes entries shapeOffset nameOffset).length = entries.length * recordLength := by
  induction entries generalizing shapeOffset nameOffset with
  | nil => simp [recordBytes]
  | cons e rest ih =>
    simp only [recordBytes, List.length_append, length_bytes, length_halfBytes, ih,
      List.length_cons, recordLength]
    omega

lemma length_shapes (shapes : List StoredShape) :
    (shapes.flatMap shapeBytes).length = shapes.length * shapeLength := by
  simp [List.length_flatMap]

/-- The regions of a written table. -/
lemma holds_encode {entries : List ConstantEntry} (h : data.Holds 0 (encode entries)) :
    ∃ shapesOffset targetOffset namesOffset,
      shapesOffset = headerLength + entries.length * recordLength ∧ shapesOffset ≤ targetOffset ∧
      data.Holds 0 (listBytes [28, 0, 0xFFFE0200, UInt32.ofNat entries.length, 28, 0,
        UInt32.ofNat targetOffset]) ∧
      data.Holds headerLength (recordBytes entries shapesOffset namesOffset) ∧
      data.Holds shapesOffset ((entries.filterMap (·.shape)).flatMap shapeBytes) ∧
      data.Holds targetOffset writtenTarget ∧
      data.Holds namesOffset (entries.flatMap fun e => e.nameBytes ++ [0]) := by
  simp only [encode, Bytes.holds_append, List.length_append, length_recordBytes, length_shapes,
    Image.length_listBytes, List.length_cons, List.length_nil, Nat.zero_add, Nat.reduceAdd,
    Nat.reduceMul, and_assoc] at h
  obtain ⟨hheader, hrecords, hshapes, htarget, hnames⟩ := h
  exact ⟨_, _, _, rfl, Nat.le_add_right _ _, hheader, hrecords, hshapes, htarget, hnames⟩

/-- A table that was written at the front of data is read if all its shapes have a meaning. -/
lemma answersIf_decode (entries : List ConstantEntry) (h : data.Holds 0 (encode entries))
    (hplain : ∀ e ∈ entries, '\u0000' ∉ e.name.toList) (hsize : data.size < 2 ^ 32) :
    AnswersIf (decode data) (∀ e ∈ entries, e.HasMeaning) (written entries) := by
  obtain ⟨shapesOffset, targetOffset, namesOffset, hoffset, hle, hheader, hrecords, hshapes,
    htarget, hnames⟩ := holds_encode h
  have hfits := htarget.le_size
  obtain ⟨-, hcreator, -, hcount, hbase, -, htargetAt⟩ :
      data.Holds 0 (bytes 28) ∧ data.Holds 4 (bytes 0) ∧ data.Holds 8 (bytes 0xFFFE0200) ∧
      data.Holds 12 (bytes (UInt32.ofNat entries.length)) ∧ data.Holds 16 (bytes 28) ∧
      data.Holds 20 (bytes 0) ∧ data.Holds 24 (bytes (UInt32.ofNat targetOffset)) := by
    simpa only [Image.listBytes_cons, Image.listBytes_nil, List.append_nil, Bytes.holds_append,
      length_bytes, Nat.zero_add, Nat.reduceAdd] using hheader
  have htargetOffset : (UInt32.ofNat targetOffset).toNat = targetOffset :=
    Image.toNat_ofNat_of_lt (by omega)
  have hlength : (UInt32.ofNat entries.length).toNat = entries.length :=
    Image.toNat_ofNat_of_lt (by unfold recordLength at hoffset; omega)
  have hname : data.text targetOffset "ctab target" = .ok "vs_2_0" := by
    refine Bytes.Holds.text ?_ (by decide) _
    rw [writtenTarget, List.append_cons, Bytes.holds_append] at htarget
    exact htarget.1
  have hpos : shapesOffset ≠ 0 := by
    unfold headerLength at hoffset
    omega
  have hconstants := answersIf_readConstants entries hplain hpos hsize hrecords hshapes hnames
  unfold decode
  dsimp only
  rw [if_neg (by omega)]
  refine .bind_ok (hcreator.word _) <| .bind_ok (hcount.word _) <| .bind_ok (hbase.word _) <|
    .bind_ok (htargetAt.word _) ?_
  rw [hlength, htargetOffset, if_neg (Nat.not_lt.2 (hoffset ▸ Nat.le_trans hle (by omega)))]
  have htarget' : optionalText data targetOffset "ctab target" = .ok (some "vs_2_0") := by
    rw [optionalText, if_neg (by omega), hname]
    rfl
  refine AnswersIf.mono (hconstants.bind fun _ => .bind_ok (b := written entries) rfl <|
    .bind_ok htarget' (.of_eq_ok rfl)) ?_
  rw [and_true]

end ConstantTable

end ShaderEffect
