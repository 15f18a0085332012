import ShaderEffect.Proofs.Image.RoundTrip
import ShaderEffect.Proofs.Image.Sound

/-!
# Reading longer data

What follows the data of an image does not matter: a reader that succeeds has met no bound of its
region, so in a longer region it answers the same and ends at the same place (`Reader.Persists`).
Hence data that is cut off is refused, or it was read to its end before the cut
(`Image.decode_append`).
-/

namespace ShaderEffect

/-- What a reader answers in a region it answers in every longer one. -/
def Reader.Persists {α : Type} (reader : Reader α) : Prop :=
  ∀ data position a position', reader data position = .ok (a, position') →
    ∀ more : Bytes, reader (data ++ more) position = .ok (a, position')

/-- What a reader of nodes answers in a region, however many nodes are left, it answers in every
longer one. -/
def Image.NodeReader.Persists {α : Type} (reader : Image.NodeReader α) : Prop :=
  ∀ budget, Reader.Persists (reader budget)

/-! ### Bytes -/

namespace Bytes

variable {data : Bytes} {position length : Nat} {field : String}

lemma word_append {w : UInt32} (h : data.word position field = .ok w) (more : Bytes) :
    Bytes.word (data ++ more) position field = .ok w := by
  rw [Bytes.word] at h ⊢
  split at h
  case isFalse => cases h
  case isTrue hle =>
    have hle' : position + 4 ≤ (data ++ more).size := by
      rw [Array.size_append]
      omega
    rw [dif_pos hle', ← h, Array.getElem_append_left (by omega),
      Array.getElem_append_left (by omega), Array.getElem_append_left (by omega),
      Array.getElem_append_left (by omega)]

lemma slice_append {bs : Bytes} (h : data.slice position length field = .ok bs) (more : Bytes) :
    Bytes.slice (data ++ more) position length field = .ok bs := by
  rw [Bytes.slice] at h ⊢
  split at h
  case isFalse => cases h
  case isTrue hle =>
    have hle' : position + length ≤ (data ++ more).size := by
      rw [Array.size_append]
      omega
    rw [if_pos hle', ← h, Array.extract_append, Nat.sub_eq_zero_of_le hle, Array.extract_zero,
      Array.append_empty]

end Bytes

/-! ### Readers -/

variable {α β : Type}

namespace Reader.Persists

variable {reader : Reader α}

lemma pure (a : α) : (pure a : Reader α).Persists := fun _ _ _ _ h _ => h

lemma throw (e : FormatError) : (throw e : Reader α).Persists := by
  intro data position a position' h
  cases h

lemma bind {f : α → Reader β} (h : reader.Persists) (hf : ∀ a, (f a).Persists) :
    (reader >>= f).Persists := by
  intro data position b position' hread more
  obtain ⟨⟨a, between⟩, hfirst, hrest⟩ := exists_of_bind_eq_ok hread
  show (reader (data ++ more) position >>= fun r => f r.1 (data ++ more) r.2) = _
  rw [h data position a between hfirst more]
  exact hf a data between b position' hrest more

lemma elsewhere (h : reader.Persists) (position : Nat) : (reader.elsewhere position).Persists := by
  intro data here a here' hread more
  rw [Reader.elsewhere] at hread ⊢
  split at hread
  case h_2 => cases hread
  case h_1 b there hfirst =>
    rw [h data position b there hfirst more]
    exact hread

lemma whole {f : Bytes → Except FormatError α}
    (h : ∀ data a, f data = .ok a → ∀ more : Bytes, f (data ++ more) = .ok a) :
    (Reader.whole f).Persists := by
  intro data here a here' hread more
  rw [Reader.whole] at hread ⊢
  split at hread
  case h_2 => cases hread
  case h_1 b hfirst =>
    rw [h data b hfirst more]
    exact hread

lemma word (field : String) : (Reader.word field).Persists := by
  intro data position w position' hread more
  rw [Reader.word] at hread ⊢
  split at hread
  case h_2 => cases hread
  case h_1 v hfirst =>
    rw [Bytes.word_append hfirst more]
    exact hread

lemma paddedSlice (length : Nat) (field : String) : (Reader.paddedSlice length field).Persists := by
  intro data position bs position' hread more
  rw [Reader.paddedSlice] at hread ⊢
  split at hread
  case h_2 => cases hread
  case h_1 cs hfirst =>
    rw [Bytes.slice_append hfirst more]
    exact hread

/-- A region that can hold some records can hold them if it is longer. -/
lemma checkCount (count : UInt32) (least : Nat) (record : String) :
    (Reader.checkCount count least record).Persists := by
  refine whole fun data a hread more => ?_
  split at hread
  case isFalse => cases hread
  case isTrue hle =>
    rw [Array.size_append, if_pos (Nat.le_trans hle (Nat.le_add_right ..))]

lemma repeated (h : reader.Persists) (n : Nat) (done : List α) :
    (repeated reader n done).Persists := by
  induction n generalizing done with
  | zero => exact pure _
  | succ n ih => exact h.bind fun a => ih (a :: done)

end Reader.Persists

namespace Image.NodeReader.Persists

variable {reader : NodeReader α}

lemma pure (a : α) : (pure a : NodeReader α).Persists := fun budget => .pure (a, budget)

lemma throw (e : FormatError) : (throw e : NodeReader α).Persists := fun _ => .throw e

lemma bind {f : α → NodeReader β} (h : reader.Persists) (hf : ∀ a, (f a).Persists) :
    (reader >>= f).Persists :=
  fun budget => (h budget).bind fun r => hf r.1 r.2

/-- Reading without creating nodes. -/
lemma lift {reader : Reader α} (h : reader.Persists) : (liftM reader : NodeReader α).Persists :=
  fun budget => h.bind fun a => .pure (a, budget)

lemma takeNode : takeNode.Persists
  | 0 => .throw _
  | left + 1 => .pure ((), left)

lemma elsewhere (h : reader.Persists) (position : Nat) : (reader.elsewhere position).Persists :=
  fun budget => (h budget).elsewhere position

lemma repeated (h : reader.Persists) (n : Nat) (done : List α) :
    (repeated reader n done).Persists := by
  induction n generalizing done with
  | zero => exact pure _
  | succ n ih => exact h.bind fun a => ih (a :: done)

/-- Reading a word first. -/
lemma word {field : String} {f : UInt32 → NodeReader β} (hf : ∀ w, (f w).Persists) :
    (liftM (Reader.word field) >>= f).Persists :=
  (lift (.word field)).bind hf

/-- Checking a count first. -/
lemma checkCount {count : UInt32} {least : Nat} {record : String} {f : Unit → NodeReader β}
    (hf : (f ()).Persists) : (liftM (Reader.checkCount count least record) >>= f).Persists :=
  (lift (.checkCount count least record)).bind fun _ => hf

end Image.NodeReader.Persists

namespace Image

/-! ### Names and types -/

lemma persists_readName (offset : UInt32) : (readName offset).Persists := by
  refine .whole fun data name hread more => ?_
  obtain ⟨length, hlength, hread⟩ := exists_of_bind_eq_ok hread
  rw [Bytes.word_append hlength more]
  change (if length = 0 then _ else _) = _
  split at hread
  case isTrue hzero =>
    rw [if_pos hzero]
    exact hread
  case isFalse hzero =>
    obtain ⟨raw, hraw, hread⟩ := exists_of_bind_eq_ok hread
    rw [if_neg hzero, Bytes.slice_append hraw more]
    exact hread

lemma persists_readShape (cls : ParameterClass) : (readShape cls).Persists := by
  cases cls with
  | vector => exact (Reader.Persists.word _).bind fun _ => .pure _
  | scalar | matrixRows | matrixColumns =>
    exact (Reader.Persists.word _).bind fun _ => (Reader.Persists.word _).bind fun _ => .pure _
  | object | struct => exact .pure _

lemma persists_readType (depth : Nat) : (readType depth).Persists := by
  induction depth with
  | zero => exact .throw _
  | succ depth ih =>
    rw [readType]
    refine (Reader.Persists.word _).bind fun typeNumber => (Reader.Persists.word _).bind
      fun classNumber => ?_
    split
    case h_2 => exact .throw _
    split
    case h_2 => exact .throw _
    rename_i cls _
    refine (Reader.Persists.word _).bind fun offset => (persists_readName offset).bind fun name =>
      (Reader.Persists.word _).bind fun offset => (persists_readName offset).bind fun semantic =>
      (Reader.Persists.word _).bind fun elements => (persists_readShape cls).bind fun shape => ?_
    dsimp only
    split
    · refine (Reader.Persists.word _).bind fun count => (Reader.Persists.checkCount _ _ _).bind
        fun _ => (ih.repeated count.toNat []).bind fun members => ?_
      split
      · exact .pure _
      · exact .throw _
    · refine (Reader.Persists.pure _).bind fun members => ?_
      split
      · exact .pure _
      · exact .throw _

/-! ### Values -/

lemma persists_readStates {readValue : UInt32 → UInt32 → NodeReader Node}
    (h : ∀ type value, (readValue type value).Persists) (count : UInt32) :
    (readStates readValue count).Persists := by
  refine .checkCount (.repeated (.word fun operation => ?_) _ _)
  split
  · exact .bind (.throw _) fun _ => .word fun _ => .word fun _ => .word fun _ =>
      (h _ _).bind fun _ => .pure _
  · exact .word fun _ => .word fun type => .word fun value => (h type value).bind fun _ => .pure _

lemma persists_expand {d : Declaration} {readOne : NodeReader Node} (h : readOne.Persists) :
    (expand d readOne).Persists := by
  rw [expand]
  split
  · exact h
  · exact NodeReader.Persists.takeNode.bind fun _ => (h.repeated _ _).bind fun _ => .pure _

lemma persists_readObject (objectCount : UInt32) (d : Declaration) :
    (readObject objectCount d).Persists := by
  refine .word fun id => ?_
  dsimp only
  split
  · exact .bind (.throw _) fun _ => .pure _
  · exact .pure _

section

variable {objectCount : UInt32} {readSampler : NodeReader (List (Assignment Node))}

mutual

lemma persists_readOne (hsampler : readSampler.Persists) (type : TypeDef) :
    (readOne objectCount readSampler type).Persists := by
  cases type with
  | mk d members =>
    rw [readOne]
    refine NodeReader.Persists.takeNode.bind fun _ => ?_
    cases d.cls with
    | struct => exact (persists_readMembers hsampler members).bind fun _ => .pure _
    | object =>
      dsimp only
      split
      · exact hsampler.bind fun _ => .pure _
      · exact persists_readObject objectCount d.element
    | _ => exact (NodeReader.Persists.repeated (.lift (.word _)) _ _).bind fun _ => .pure _

lemma persists_readMembers (hsampler : readSampler.Persists) (types : List TypeDef) :
    (readMembers objectCount readSampler types).Persists := by
  cases types with
  | nil => exact .pure _
  | cons type rest =>
    obtain ⟨d, members⟩ := type
    rw [readMembers]
    exact (persists_expand (persists_readOne hsampler (.mk d members))).bind fun _ =>
      (persists_readMembers hsampler rest).bind fun _ => .pure _

end

end

lemma persists_readTyped (objectCount : UInt32) (depth : Nat) (typeOffset valueOffset : UInt32) :
    (readTyped objectCount depth typeOffset valueOffset).Persists := by
  have hread : ∀ depth (inner : UInt32 → UInt32 → NodeReader Node),
      (∀ type value, (inner type value).Persists) →
      (readTyped.read objectCount depth typeOffset valueOffset inner).Persists := by
    intro depth inner hinner
    refine (NodeReader.Persists.lift ((persists_readType depth).elsewhere _)).bind fun type => ?_
    obtain ⟨d, members⟩ := type
    exact .elsewhere (persists_expand (persists_readOne
      (.word fun count => persists_readStates hinner count) (.mk d members))) _
  match depth with
  | 0 => exact .throw _
  | 1 => exact hread 1 _ fun _ _ => .throw _
  | depth + 2 =>
    exact hread (depth + 2) _ fun type value => persists_readTyped objectCount depth type value

/-! ### Records -/

section

variable (objectCount : UInt32)

lemma persists_readAnnotations (count : UInt32) :
    (readAnnotations objectCount count).Persists :=
  .checkCount (.repeated (.word fun type => .word fun value =>
    persists_readTyped objectCount depthLimit type value) _ _)

lemma persists_readParameter : (readParameter objectCount).Persists :=
  .word fun type => .word fun value => .word fun _ => .word fun count =>
    (persists_readAnnotations objectCount count).bind fun _ =>
      (persists_readTyped objectCount depthLimit type value).bind fun _ => .pure _

lemma persists_readPass : (readPass objectCount).Persists :=
  .word fun offset => (NodeReader.Persists.lift (persists_readName offset)).bind fun _ =>
    .word fun noteCount => .word fun stateCount =>
      (persists_readAnnotations objectCount noteCount).bind fun _ =>
        (persists_readStates (persists_readTyped objectCount (depthLimit - 1)) stateCount).bind
          fun _ => .pure _

lemma persists_readTechnique : (readTechnique objectCount).Persists :=
  .word fun offset => (NodeReader.Persists.lift (persists_readName offset)).bind fun _ =>
    .word fun noteCount => .word fun passCount =>
      (persists_readAnnotations objectCount noteCount).bind fun _ =>
        .checkCount (((persists_readPass objectCount).repeated passCount.toNat []).bind
          fun _ => .pure _)

lemma persists_readObjectData : (readObjectData objectCount).Persists := by
  refine (Reader.Persists.word _).bind fun id => ?_
  split
  · exact .bind (.throw _) fun _ => (Reader.Persists.word _).bind fun _ =>
      (Reader.Persists.paddedSlice _ _).bind fun _ => .pure _
  · exact (Reader.Persists.word _).bind fun _ =>
      (Reader.Persists.paddedSlice _ _).bind fun _ => .pure _

end

lemma persists_readResource : readResource.Persists :=
  (Reader.Persists.word _).bind fun _ => (Reader.Persists.word _).bind fun _ =>
    (Reader.Persists.word _).bind fun _ => (Reader.Persists.word _).bind fun _ =>
      (Reader.Persists.word _).bind fun _ => (Reader.Persists.word _).bind fun _ =>
        (Reader.Persists.paddedSlice _ _).bind fun _ => .pure _

lemma persists_readRecords : readRecords.Persists := by
  refine (Reader.Persists.word _).bind fun parameterCount =>
    (Reader.Persists.word _).bind fun techniqueCount => (Reader.Persists.word _).bind fun _ =>
    (Reader.Persists.word _).bind fun objectCount =>
    (Reader.Persists.checkCount _ _ _).bind fun _ =>
    (Reader.Persists.checkCount _ _ _).bind fun _ => ?_
  have hnodes : NodeReader.Persists (do
      let parameters ← repeated (readParameter objectCount) parameterCount.toNat []
      let techniques ← repeated (readTechnique objectCount) techniqueCount.toNat []
      return (parameters, techniques)) :=
    ((persists_readParameter objectCount).repeated _ _).bind fun _ =>
      ((persists_readTechnique objectCount).repeated _ _).bind fun _ => .pure _
  refine (hnodes nodeLimit).bind fun read => (Reader.Persists.word _).bind fun dataCount =>
    (Reader.Persists.word _).bind fun resourceCount => (Reader.Persists.checkCount _ _ _).bind
    fun _ => (Reader.Persists.checkCount _ _ _).bind fun _ => ?_
  exact ((persists_readObjectData objectCount).repeated _ _).bind fun _ =>
    (persists_readResource.repeated _ _).bind fun _ => .pure _

/-! ### Images -/

lemma le_size_of_word_eq_ok {data : Bytes} {position : Nat} {field : String} {w : UInt32}
    (h : data.word position field = .ok w) : position + 4 ≤ data.size := by
  rw [Bytes.word] at h
  split at h
  case isTrue hle => exact hle
  case isFalse => cases h

/-- Behind the two words in front stands the region, and what it holds is read from there. -/
lemma decode_region (start : UInt32) (region : Bytes) :
    decode ((Word.listBytes [tag, start]).toArray ++ region) =
      readRecords.runAt region start.toNat := by
  have hholds : Bytes.Holds (Word.listBytes [tag, start]).toArray 0
      (Word.bytes tag ++ Word.bytes start) := ⟨[], [], rfl, rfl⟩
  obtain ⟨htag, hstart⟩ := Bytes.holds_append.1 hholds
  rw [Word.length_bytes] at hstart
  have hsize : (Word.listBytes [tag, start]).toArray.size = preambleLength := rfl
  have hextract : ((Word.listBytes [tag, start]).toArray ++ region).extract preambleLength
      ((Word.listBytes [tag, start]).toArray ++ region).size = region := by
    rw [← hsize, Array.extract_append, Array.size_append]
    simp
  rw [decode, Bytes.word_append (htag.word _), Bytes.word_append (hstart.word _), hextract]
  rfl

/-- Data that is read is read as the same image if more data follows. So of what is cut off from
stored data, either nothing is read, or what the whole is read as. -/
theorem decode_append {stored : Bytes} {im : Image} (h : decode stored = .ok im) (more : Bytes) :
    decode (stored ++ more) = .ok im := by
  obtain ⟨found, hfound, h⟩ := exists_of_bind_eq_ok h
  split at h
  case isTrue => cases h
  case isFalse htag =>
    obtain ⟨start, hstart, h⟩ := exists_of_bind_eq_ok h
    have hsize : preambleLength ≤ stored.size := le_size_of_word_eq_ok hstart
    have hstop : stored.extract preambleLength (stored.size + more.size) =
        stored.extract preambleLength stored.size :=
      Array.ext (by simp) fun i hi hi' => by simp
    have hregion : (stored ++ more).extract preambleLength (stored ++ more).size =
        stored.extract preambleLength stored.size ++ more := by
      rw [Array.extract_append, Array.size_append, Nat.sub_eq_zero_of_le hsize,
        Nat.add_sub_cancel_left, Array.extract_size, hstop]
    rw [decode, Bytes.word_append hfound more]
    show (if found ≠ tag then _ else _) = _
    rw [if_neg htag, Bytes.word_append hstart more, hregion]
    rw [Reader.runAt] at h
    split at h
    case h_2 => cases h
    case h_1 im' position' hread =>
      cases h
      show Reader.runAt _ _ _ = _
      rw [Reader.runAt, persists_readRecords _ _ _ _ hread more]

/-- Both samplers are read as well if something follows them. -/
theorem decode_samplerPair_append :
    ∃ im, decode (encode samplerPair).toArray = .ok im ∧
      decode ((encode samplerPair).toArray ++ #[0, 7]) = .ok im := by
  obtain ⟨im, him⟩ := Option.isSome_iff_exists.1
    (show (decode (encode samplerPair).toArray).toOption.isSome = true by decide +kernel)
  have hdecode := eq_ok_of_toOption_eq_some him
  exact ⟨im, hdecode, decode_append hdecode #[0, 7]⟩

end Image

end ShaderEffect
