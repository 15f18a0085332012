import ShaderEffect.Proofs.Image.Records

/-!
# Reading what was written

To read an effect that was written gives the image that its content describes
(`Image.decode_encode`): the records are read one after the other, then what is attached to objects
and states, and the names, types and values they point to are found in the region in front.
-/

namespace ShaderEffect

variable {α : Type} {objectCount : UInt32} {data : Bytes}

/-- All counts, sizes and offsets that are written for an effect fit in words. -/
structure WrittenEffect.IsSized (e : WrittenEffect) : Prop where
  region : ((Image.recordWords e).run {}).2.length < 2 ^ 32
  parameters : e.parameters.length < 2 ^ 32
  notes : ∀ p ∈ e.parameters, p.notes.length < 2 ^ 32
  techniques : e.techniques.length < 2 ^ 32
  technique : ∀ t ∈ e.techniques, t.IsSized
  objectData : e.objectData.length < 2 ^ 32
  object : ∀ d ∈ e.objectData, d.data.size < 2 ^ 32
  resources : e.resources.length < 2 ^ 32
  resource : ∀ r ∈ e.resources, r.data.size < 2 ^ 32

namespace Image

/-! ### Attached data -/

lemma consumes_readObjectData {d : ObjectData} (hid : d.id < objectCount)
    (hsize : d.data.size < 2 ^ 32) :
    (readObjectData objectCount).Consumes data (objectDataBytes d) d := by
  rw [readObjectData]
  show Reader.Consumes _ data (Word.bytes d.id ++ (Word.bytes (UInt32.ofNat d.data.size) ++
    Word.padded d.data.toList)) _
  refine (Reader.Consumes.word d.id _).bind ?_
  rw [if_neg (UInt32.not_le.2 hid)]
  refine (Reader.Consumes.word (UInt32.ofNat d.data.size) _).bind ?_
  rw [toNat_ofNat_of_lt hsize]
  exact (Reader.Consumes.paddedSlice d.data.toList _).bind_pure

lemma consumes_readResource {r : Resource} (hsize : r.data.size < 2 ^ 32) :
    readResource.Consumes data (resourceBytes r) r := by
  rw [readResource]
  show Reader.Consumes _ data (Word.bytes r.technique ++ (Word.bytes r.index ++
    (Word.bytes r.element ++ (Word.bytes r.state ++ (Word.bytes r.usage ++
    (Word.bytes (UInt32.ofNat r.data.size) ++ Word.padded r.data.toList)))))) _
  refine (Reader.Consumes.word r.technique _).bind ((Reader.Consumes.word r.index _).bind
    ((Reader.Consumes.word r.element _).bind ((Reader.Consumes.word r.state _).bind
    ((Reader.Consumes.word r.usage _).bind ((Reader.Consumes.word _ _).bind ?_)))))
  rw [toNat_ofNat_of_lt hsize]
  exact (Reader.Consumes.paddedSlice r.data.toList _).bind_pure

lemma consumes_times {reader : Reader α} {f : α → List UInt8} {as : List α}
    (h : ∀ a ∈ as, reader.Consumes data (f a) a) :
    (Reader.times as.length reader).Consumes data (as.flatMap f) as := by
  induction as with
  | nil => exact .times_zero reader
  | cons a rest ih =>
    obtain ⟨ha, hrest⟩ := List.forall_mem_cons.1 h
    exact .times_succ ha (ih hrest)

lemma length_mul_le_length_flatMap {f : α → List UInt8} {least : Nat} (as : List α)
    (h : ∀ a, least ≤ (f a).length) : as.length * least ≤ (as.flatMap f).length := by
  induction as with
  | nil => simp
  | cons a rest ih =>
    rw [List.length_cons, List.flatMap_cons, List.length_append, Nat.succ_mul]
    have := h a
    omega

/-! ### Images -/

/-- All records of an image are read from words for them and bytes of what is attached. -/
lemma consumes_readRecords (im : Image)
    {parameterCount techniqueCount dataCount resourceCount : UInt32} {ps ts : List UInt32}
    (hps : SpellsRecords data (readParameter im.objectCount) ParameterRecord.nodeCount 4
      parameterCount.toNat im.parameters ps)
    (hts : SpellsRecords data (readTechnique im.objectCount) TechniqueRecord.nodeCount 3
      techniqueCount.toNat im.techniques ts)
    (hdataCount : dataCount.toNat = im.objectData.length)
    (hresourceCount : resourceCount.toNat = im.resources.length)
    (hdata : ∀ d ∈ im.objectData, d.id < im.objectCount ∧ d.data.size < 2 ^ 32)
    (hresources : ∀ r ∈ im.resources, r.data.size < 2 ^ 32) (hcount : im.nodeCount ≤ nodeLimit) :
    readRecords.Consumes data
      (Word.listBytes ([parameterCount, techniqueCount, 0, im.objectCount] ++ (ps ++ ts)) ++
        (Word.listBytes [dataCount, resourceCount] ++
        (im.objectData.flatMap objectDataBytes ++ im.resources.flatMap resourceBytes))) im := by
  apply Reader.Consumes.of_length_le
  intro hsize
  have hps' := hps.le_length
  have hts' := hts.le_length
  have hdata' : im.objectData.length * 8 ≤ (im.objectData.flatMap objectDataBytes).length :=
    length_mul_le_length_flatMap _ fun d => by simp [objectDataBytes, length_listBytes]
  have hresources' : im.resources.length * 24 ≤ (im.resources.flatMap resourceBytes).length :=
    length_mul_le_length_flatMap _ fun d => by simp [resourceBytes, length_listBytes]
  simp only [List.length_append, length_listBytes] at hsize
  have hnodes : NodeReader.Consumes (do
      let parameters ← repeated (readParameter im.objectCount) parameterCount.toNat []
      let techniques ← repeated (readTechnique im.objectCount) techniqueCount.toNat []
      return (parameters, techniques)) data im.nodeCount (Word.listBytes (ps ++ ts))
      (im.parameters, im.techniques) := by
    rw [listBytes_append]
    exact hps.consumes.bind hts.consumes.bind_pure
  have hnodes := hnodes (nodeLimit - im.nodeCount)
  rw [Nat.add_sub_cancel' hcount] at hnodes
  simp only [List.cons_append, List.nil_append, listBytes_cons, listBytes_nil, List.append_assoc]
  rw [readRecords]
  refine (Reader.Consumes.word parameterCount _).bind ((Reader.Consumes.word techniqueCount _).bind
    ((Reader.Consumes.word 0 _).bind ((Reader.Consumes.word im.objectCount _).bind ?_)))
  refine .bind_nil (.checkCount (by omega) _) (.bind_nil (.checkCount (by omega) _) ?_)
  refine hnodes.bind ?_
  refine (Reader.Consumes.word dataCount _).bind ((Reader.Consumes.word resourceCount _).bind ?_)
  refine .bind_nil (.checkCount (by omega) _) (.bind_nil (.checkCount (by omega) _) ?_)
  rw [hdataCount, hresourceCount]
  refine (consumes_times fun d hd => consumes_readObjectData (hdata d hd).1 (hdata d hd).2).bind ?_
  exact (consumes_times fun r hr => consumes_readResource (hresources r hr)).bind_pure

/-- The records of content that describes an image can be read if the region stands in front. -/
lemma spells_recordWords {e : WrittenEffect} {ps : List ParameterRecord}
    {ts : List TechniqueRecord} (hsized : e.IsSized)
    (hps : parameters? e.objectCount e.parameters = some ps)
    (hts : techniques? e.objectCount e.techniques = some ts) (hpsShallow : ∀ r ∈ ps, r.Shallow)
    (htsShallow : ∀ t ∈ ts, t.Shallow) (data : Bytes) :
    ((recordWords e).run {}).2.Counted ∧ (((recordWords e).run {}).2.Within data →
      ∃ ws ws', ((recordWords e).run {}).1 = [UInt32.ofNat e.parameters.length,
          UInt32.ofNat e.techniques.length, 0, e.objectCount] ++ (ws ++ ws') ∧
        SpellsRecords data (readParameter e.objectCount) ParameterRecord.nodeCount 4
          e.parameters.length ps ws ∧
        SpellsRecords data (readTechnique e.objectCount) TechniqueRecord.nodeCount 3
          e.techniques.length ts ws') := by
  -- The first step adds the empty name, on which what the others do relies.
  have hrest : Writer.Writes (do
      let parameters ← parameterWords e.parameters
      let techniques ← techniqueWords e.techniques
      return [UInt32.ofNat e.parameters.length, UInt32.ofNat e.techniques.length, 0,
        e.objectCount] ++ parameters ++ techniques) data fun records => ∃ ws ws', records =
        [UInt32.ofNat e.parameters.length, UInt32.ofNat e.techniques.length, 0, e.objectCount] ++
          (ws ++ ws') ∧
      SpellsRecords data (readParameter e.objectCount) ParameterRecord.nodeCount 4
        e.parameters.length ps ws ∧
      SpellsRecords data (readTechnique e.objectCount) TechniqueRecord.nodeCount 3
        e.techniques.length ts ws' := by
    refine (writes_parameterWords e.objectCount e.parameters hsized.notes).bind fun ws =>
      (writes_techniqueWords e.objectCount e.techniques hsized.technique).bind fun ws' =>
      .pure fun htechniques hparameters => ⟨ws, ws', List.append_assoc .., ?_, ?_⟩
    · exact hparameters ps hps hpsShallow
    · exact htechniques ts hts htsShallow
  obtain ⟨hcounted, hback⟩ := hrest ((emitWords [0]).run {}).2 rfl
  refine ⟨hcounted, fun hwithin => ?_⟩
  obtain ⟨hfirst, hspells⟩ := hback hwithin
  exact hspells hfirst.holds

/-- Behind the two words in front stand a region and the records, and what they hold is read. -/
lemma decode_eq_ok {region : Region} {bs : List UInt8} {im : Image} (hcounted : region.Counted)
    (hlt : region.length < 2 ^ 32)
    (hread : ∀ data, region.Within data → readRecords.Consumes data bs im) :
    decode (Word.listBytes [tag, UInt32.ofNat region.length] ++
      (region.reversed.reverse ++ bs)).toArray = .ok im := by
  obtain ⟨data, hdata⟩ : ∃ data : Bytes, data = (region.reversed.reverse ++ bs).toArray := ⟨_, rfl⟩
  -- The bytes are named, so that nothing below computes with them.
  obtain ⟨start, hstart⟩ : ∃ start, start = UInt32.ofNat region.length := ⟨_, rfl⟩
  obtain ⟨stored, hstored⟩ : ∃ stored : Bytes,
      stored = (Word.bytes tag ++ (Word.bytes start ++ data.toList)).toArray := ⟨_, rfl⟩
  have hbytes : (Word.listBytes [tag, UInt32.ofNat region.length] ++
      (region.reversed.reverse ++ bs)).toArray = stored := by
    simp only [hstored, hdata, hstart, listBytes_cons, listBytes_nil, List.append_assoc,
      List.nil_append]
  have hholds : stored.Holds 0 (Word.bytes tag ++ (Word.bytes start ++ data.toList)) := by
    refine ⟨[], [], ?_, rfl⟩
    rw [hstored, List.toList_toArray, List.nil_append, List.append_nil]
  obtain ⟨htag, hholds⟩ := Bytes.holds_append.1 hholds
  obtain ⟨hstartHolds, hdataHolds⟩ := Bytes.holds_append.1 hholds
  rw [Word.length_bytes] at hstartHolds
  rw [Word.length_bytes, Word.length_bytes] at hdataHolds
  have hextract : stored.extract preambleLength stored.size = data := by
    have hsize : stored.size = 8 + data.toList.length := by
      simp only [hstored, List.size_toArray, List.length_append, Word.length_bytes]
      omega
    rw [hsize]
    exact hdataHolds.extract
  have hregion : data.Holds 0 (region.reversed.reverse ++ bs) := by
    refine ⟨[], [], ?_, rfl⟩
    rw [hdata, List.toList_toArray, List.nil_append, List.append_nil]
  obtain ⟨hfront, hrecords⟩ := Bytes.holds_append.1 hregion
  have hlength : start.toNat = 0 + region.reversed.reverse.length := by
    rw [hstart, toNat_ofNat_of_lt hlt, Nat.zero_add, List.length_reverse]
    exact hcounted
  rw [hbytes, decode, htag.word]
  show (pure tag >>= _) = _
  rw [pure_bind, if_neg (fun hne => hne rfl), hstartHolds.word, hextract]
  show readRecords.runAt data start.toNat = _
  rw [Reader.runAt, hlength, hread data ⟨hfront, hlt⟩ _ hrecords]

lemma encode_eq (e : WrittenEffect) :
    encode e = Word.listBytes [tag, UInt32.ofNat ((recordWords e).run {}).2.length] ++
      (((recordWords e).run {}).2.reversed.reverse ++ (Word.listBytes ((recordWords e).run {}).1 ++
        (Word.listBytes [UInt32.ofNat e.objectData.length, UInt32.ofNat e.resources.length] ++
          (e.objectData.flatMap objectDataBytes ++ e.resources.flatMap resourceBytes)))) := by
  rw [encode]
  rcases (recordWords e).run {} with ⟨records, region⟩
  simp only [List.append_assoc]

lemma exists_of_image?_eq_some {e : WrittenEffect} {im : Image} (h : e.image? = some im) :
    ∃ ps ts, parameters? e.objectCount e.parameters = some ps ∧
      techniques? e.objectCount e.techniques = some ts ∧
      (∀ d ∈ e.objectData, d.id < e.objectCount) ∧
      im = ⟨ps, ts, e.objectCount, e.objectData, e.resources⟩ := by
  obtain ⟨ps, hps, h⟩ := Option.bind_eq_some_iff.1 h
  obtain ⟨ts, hts, h⟩ := Option.bind_eq_some_iff.1 h
  split at h
  case isTrue hid => exact ⟨ps, ts, hps, hts, hid, (Option.some.inj h).symm⟩
  case isFalse => cases h

/-- An image is described by content from which it can be read again: sizes fit in words, no value
stands too deep, and there are no more nodes than an image may have. -/
structure IsWrittenAs (im : Image) (e : WrittenEffect) : Prop where
  image? : e.image? = some im
  sized : e.IsSized
  depth_lt : ∀ n p, im.Contains n p → p.depth < depthLimit
  nodeCount_le : im.nodeCount ≤ nodeLimit

lemma IsWrittenAs.decode {e : WrittenEffect} {im : Image} (h : im.IsWrittenAs e) :
    Image.decode (encode e).toArray = .ok im := by
  obtain ⟨him, hsized, hdepth, hcount⟩ := h
  obtain ⟨ps, ts, hps, hts, hid, rfl⟩ := exists_of_image?_eq_some him
  have hpsShallow : ∀ r ∈ ps, r.Shallow := fun r hr =>
    ⟨fun n q h => hdepth n q (.parameter hr h),
      fun _ hnote n q h => hdepth n q (.parameterNote hr hnote h)⟩
  have htsShallow : ∀ t ∈ ts, t.Shallow := fun t ht =>
    ⟨fun _ hnote n q h => hdepth n q (.techniqueNote ht hnote h), fun p hp =>
      ⟨fun _ hnote n q h => hdepth n q (.passNote ht hp hnote h),
        fun _ hs n q h => hdepth n q (.passState ht hp hs h)⟩⟩
  have hspells := spells_recordWords hsized hps hts hpsShallow htsShallow
  rw [encode_eq]
  apply decode_eq_ok (hspells #[]).1 hsized.region
  intro data hwithin
  obtain ⟨ws, ws', hwords, hparameters, htechniques⟩ := (hspells data).2 hwithin
  rw [hwords]
  refine consumes_readRecords ⟨ps, ts, e.objectCount, e.objectData, e.resources⟩ ?_ ?_
    (toNat_ofNat_of_lt hsized.objectData) (toNat_ofNat_of_lt hsized.resources)
    (fun d hd => ⟨hid d hd, hsized.object d hd⟩) hsized.resource hcount
  · rwa [toNat_ofNat_of_lt hsized.parameters]
  · rwa [toNat_ofNat_of_lt hsized.techniques]

/-- To read what was written of content gives the image that the content describes, if its sizes fit
in words, no value in it stands too deep, and it has no more nodes than an image may have. -/
theorem decode_encode {e : WrittenEffect} {im : Image} (him : e.image? = some im)
    (hsized : e.IsSized) (hdepth : ∀ n p, im.Contains n p → p.depth < depthLimit)
    (hcount : im.nodeCount ≤ nodeLimit) : decode (encode e).toArray = .ok im :=
  (show im.IsWrittenAs e from ⟨him, hsized, hdepth, hcount⟩).decode

/-- An effect of two torches, each with a place and a map, of which the first map has a texture. -/
def torches : WrittenEffect where
  parameters := [⟨(WrittenType.struct "torches" [(WrittenType.vector 3 "place" 3).withSemantic
      "POSITION", .object 12 "map"]).array 2,
    [.word 1, .word 2, .word 3, .sampler [.dword 155 0 3, .object 154 0 5 1],
      .word 4, .word 5, .word 6, .sampler []], 1, [⟨.object 4 "label", [.word 0]⟩]⟩]
  techniques := [⟨some "main", [], [⟨none, [⟨.scalar 1 "first", [.word 1]⟩], [.dword 0 0 1]⟩]⟩]
  objectCount := 2
  objectData := [⟨0, #[102, 105, 114, 101, 0]⟩]
  resources := [⟨noIndex, 0, 0, 1, 1, #[0]⟩]

lemma isSized_torches : torches.IsSized where
  region := by decide +kernel
  parameters := by decide
  notes := by decide
  techniques := by decide
  technique := by
    intro t ht
    obtain rfl := List.mem_singleton.1 ht
    refine ⟨by decide, by decide, fun p hp => ?_⟩
    obtain rfl := List.mem_singleton.1 hp
    exact ⟨by decide, by decide⟩
  objectData := by decide
  object := by decide
  resources := by decide
  resource := by decide

lemma isWrittenAs_torches {im : Image} (him : torches.image? = some im) :
    im.IsWrittenAs torches := by
  have hshallow : ∀ im ∈ torches.image?, im.isShallow = true := by decide +kernel
  have hcount : ∀ im ∈ torches.image?, im.nodeCount ≤ nodeLimit := by decide +kernel
  exact ⟨him, isSized_torches, depth_lt_of_isShallow (hshallow im him), hcount im him⟩

/-- The torches are written so that they can be read. -/
theorem decode_encode_torches :
    ∃ im, torches.image? = some im ∧ decode (encode torches).toArray = .ok im := by
  obtain ⟨im, him⟩ := Option.isSome_iff_exists.1
    (show torches.image?.isSome = true by decide +kernel)
  have h := isWrittenAs_torches him
  exact ⟨im, him, decode_encode him h.sized h.depth_lt h.nodeCount_le⟩

end Image

end ShaderEffect
