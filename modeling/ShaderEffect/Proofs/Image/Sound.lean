import ShaderEffect.Image.Encode
import ShaderEffect.Proofs.Image.WellFormed
import ShaderEffect.Proofs.Image.Yields

/-!
# Images that are read

Every image that is read is well formed, whatever bytes it is read from. A value is read under the
depth that its place leaves and out of the nodes that are left, so that what holds of its type when
it is read (`TypeDef.Fits`) gives what holds of all nodes in it (`Node.Sound`).
-/

namespace ShaderEffect

namespace Image

/-! ### Types -/

/-- A type whose declarations are regular and which nests less deep than the given depth. -/
inductive TypeDef.Fits : Nat → TypeDef → Prop
  | mk {depth : Nat} {d : Declaration} {members : List TypeDef} : d.Regular →
      (∀ m ∈ members, Fits depth m) → Fits (depth + 1) (.mk d members)

/-- The declaration of a type. -/
def TypeDef.decl : TypeDef → Declaration
  | .mk d _ => d

lemma yields_readShape (cls : ParameterClass) :
    (readShape cls).Yields fun shape => cls = .vector → shape.1 = 1 := by
  cases cls
  case vector => exact .bind (.any _) fun _ _ => .pure fun _ => rfl
  all_goals exact (Reader.Yields.any _).mono fun _ _ h => by cases h

/-- Types that are read are regular and not too deep. -/
lemma yields_readType (depth : Nat) : (readType depth).Yields (TypeDef.Fits depth) := by
  induction depth with
  | zero => exact .throw _
  | succ depth ih =>
    rw [readType]
    refine .bind (.any _) fun typeNumber _ => .bind (.any _) fun classNumber _ => ?_
    split
    case h_2 => exact .throw _
    split
    case h_2 => exact .throw _
    rename_i type htype _ cls hcls
    refine .bind (.any _) fun _ _ => .bind (.any _) fun name _ => .bind (.any _) fun _ _ =>
      .bind (.any _) fun semantic _ => .bind (.any _) fun elements _ =>
      .bind (yields_readShape cls) fun shape hshape => ?_
    obtain ⟨rows, columns⟩ := shape
    let d : Declaration := { name, semantic, cls, type, rows, columns, elements }
    -- Whatever the class is, the members are read first and the declaration is checked then.
    have hcheck : ∀ members, (∀ m ∈ members, TypeDef.Fits depth m) →
        Reader.Yields (if isConsistent d then pure (.mk d members)
          else throw (.inconsistentType cls type rows.toNat columns.toNat))
          (TypeDef.Fits (depth + 1)) := by
      intro members hmembers
      split
      case isTrue hconsistent =>
        exact .pure (.mk (Declaration.regular_of_isConsistent hconsistent hshape) hmembers)
      case isFalse => exact .throw _
    dsimp only
    split
    · refine .bind (.any _) fun count _ => .bind (.any _) fun _ _ => ?_
      exact .bind (ih.times count.toNat) fun members hmembers => hcheck members hmembers.2
    · exact .bind (.pure (P := (· = [])) rfl) fun members hmembers =>
        hcheck members (by simp [hmembers])

/-! ### Values -/

end Image

namespace Node

variable {objectCount : UInt32} {p : Place} {d : Declaration}

/-- Every node that a node at a place contains is valid and not too deep. -/
def Sound (objectCount : UInt32) (p : Place) (n : Node) : Prop :=
  ∀ n' p', n.Contains p n' p' → n'.Valid objectCount ∧ p'.depth < Image.depthLimit

lemma sound_array {elements : List Node} (hvalid : (Node.array d elements).Valid objectCount)
    (hdepth : p.depth < Image.depthLimit) (h : ∀ e ∈ elements, e.Sound objectCount p) :
    (Node.array d elements).Sound objectCount p := by
  rintro n' p' (_ | ⟨he, hcontains⟩)
  · exact ⟨hvalid, hdepth⟩
  · exact h _ he n' p' hcontains

lemma sound_struct {members : List Node} (hvalid : (Node.struct d members).Valid objectCount)
    (hdepth : p.depth < Image.depthLimit) (h : ∀ m ∈ members, m.Sound objectCount p.member) :
    (Node.struct d members).Sound objectCount p := by
  rintro n' p' (_ | _ | ⟨hm, hcontains⟩)
  · exact ⟨hvalid, hdepth⟩
  · exact h _ hm n' p' hcontains

lemma sound_sampler {states : List (Assignment Node)}
    (hvalid : (Node.sampler d states).Valid objectCount) (hdepth : p.depth < Image.depthLimit)
    (h : ∀ s ∈ states, s.value.Sound objectCount p.state) :
    (Node.sampler d states).Sound objectCount p := by
  rintro n' p' (_ | _ | _ | ⟨hs, hcontains⟩)
  · exact ⟨hvalid, hdepth⟩
  · exact h _ hs n' p' hcontains

lemma sound_words {ws : List UInt32} (hvalid : (Node.words d ws).Valid objectCount)
    (hdepth : p.depth < Image.depthLimit) : (Node.words d ws).Sound objectCount p := by
  rintro n' p' ⟨⟩
  exact ⟨hvalid, hdepth⟩

lemma sound_object {id : UInt32} (hvalid : (Node.object d id).Valid objectCount)
    (hdepth : p.depth < Image.depthLimit) : (Node.object d id).Sound objectCount p := by
  rintro n' p' ⟨⟩
  exact ⟨hvalid, hdepth⟩

lemma sound_unsupported (hvalid : (Node.unsupported d).Valid objectCount)
    (hdepth : p.depth < Image.depthLimit) : (Node.unsupported d).Sound objectCount p := by
  rintro n' p' ⟨⟩
  exact ⟨hvalid, hdepth⟩

end Node

namespace Image

variable {objectCount : UInt32} {p : Place}

/-- A node was read: it has a declaration, all in it is sound, and it was counted. -/
structure Reads (objectCount : UInt32) (p : Place) (d : Declaration) (n : Node) (used : Nat) :
    Prop where
  decl : n.decl = d
  sound : n.Sound objectCount p
  count : used = n.count

/-- State assignments were read, whose values stand at a place. -/
structure ReadsStates (objectCount : UInt32) (p : Place) (states : List (Assignment Node))
    (used : Nat) : Prop where
  operations : ∀ s ∈ states, s.operation.toNat < StateTable.size
  sound : ∀ s ∈ states, s.value.Sound objectCount p
  count : used = Node.countOfStates states

lemma yields_readStates {readValue : UInt32 → UInt32 → NodeReader Node}
    (h : ∀ type value, (readValue type value).Yields fun n used =>
      n.Sound objectCount p ∧ used = n.count) (count : UInt32) :
    (readStates readValue count).Yields (ReadsStates objectCount p) := by
  refine .skip fun _ => (NodeReader.Yields.repeated (k := (·.value.count)) (P := fun s =>
    s.operation.toNat < StateTable.size ∧ s.value.Sound objectCount p) ?_ count.toNat).mono ?_
  · refine .skip fun operation => ?_
    split
    case isTrue => exact .bind (.throw _ (P := fun _ _ => False)) fun _ _ h => h.elim
    case isFalse hoperation =>
      refine .skip fun _ => .skip fun _ => .skip fun _ => ?_
      exact .bind (h _ _) fun n used hn => .pure ⟨⟨Nat.lt_of_not_le hoperation, hn.1⟩, hn.2⟩
  · rintro states used ⟨-, hstates, hused⟩
    exact ⟨fun s hs => (hstates s hs).1, fun s hs => (hstates s hs).2,
      hused.trans (Node.countOfStates_eq_sum states).symm⟩

lemma yields_readObject {d : Declaration} (hd : d.Regular) (hcls : d.cls = .object)
    (helements : d.elements = 0) (hsampler : d.type.isSampler = false)
    (hdepth : p.depth < depthLimit) :
    (readObject objectCount d).Yields fun n used => Reads objectCount p d n (used + 1) := by
  obtain ⟨hnumeric, hrows, hcolumns⟩ := hd.object hcls
  refine .skip fun id => ?_
  by_cases hid : objectCount ≤ id
  · simp only [hid, if_true]
    exact .bind (.throw _ (P := fun _ _ => False)) fun _ _ h => h.elim
  · simp only [hid, if_false]
    split
    case isTrue htype =>
      exact .pure
        ⟨rfl, Node.sound_unsupported ⟨helements, hcls, htype, hrows, hcolumns⟩ hdepth, rfl⟩
    case isFalse htype =>
      have hslot := ParameterType.isObjectSlot_of_not hnumeric hsampler htype
      exact .pure ⟨rfl, Node.sound_object ⟨helements, hcls, hslot, hrows, hcolumns,
        UInt32.not_le.1 hid⟩ hdepth, rfl⟩

/-- A value is read if its elements can be. -/
lemma yields_expand {d : Declaration} {readOne : NodeReader Node} (hdepth : p.depth < depthLimit)
    (h : readOne.Yields (Reads objectCount p d.element)) :
    (expand d readOne).Yields (Reads objectCount p d) := by
  rw [expand]
  split
  case isTrue helements => rwa [Declaration.element_eq_self helements] at h
  case isFalse helements =>
    refine NodeReader.Yields.takeNode.bind fun _ used hused => ?_
    refine .bind (NodeReader.Yields.repeated (k := Node.count)
      (P := fun e => e.decl = d.element ∧ e.Sound objectCount p)
      (h.mono fun n used hn => ⟨⟨hn.decl, hn.sound⟩, hn.count⟩) _) ?_
    rintro elements used' ⟨hlength, hall, hused'⟩
    refine .pure ⟨rfl, Node.sound_array ⟨?_, hlength, fun e he => (hall e he).1⟩ hdepth
      fun e he => (hall e he).2, ?_⟩
    · exact UInt32.pos_iff_ne_zero.2 helements
    · rw [Node.count, Node.countOf_eq_sum, hused, hused']
      omega

section

variable {readSampler : NodeReader (List (Assignment Node))}

mutual

lemma yields_readOne (p : Place)
    (hsampler : readSampler.Yields (ReadsStates objectCount p.state))
    (type : TypeDef) {depth : Nat} (htype : type.Fits depth)
    (hdepth : p.depth + depth ≤ depthLimit) :
    (readOne objectCount readSampler type).Yields (Reads objectCount p type.decl.element) := by
  cases type with
  | mk d members =>
    cases htype with
    | @mk depth _ _ hd hmembers =>
      have hlt : p.depth < depthLimit := by omega
      have helements : d.element.elements = 0 := rfl
      rw [readOne]
      refine NodeReader.Yields.takeNode.bind ?_
      rintro _ used rfl
      cases hcls : d.cls with
      | struct =>
        refine (yields_readMembers p.member hsampler members hmembers ?_).bind ?_
        · rw [Place.depth_member]
          omega
        · rintro nodes used ⟨hsound, hused⟩
          refine .pure ⟨rfl, Node.sound_struct ⟨helements, hcls, hd.struct hcls⟩ hlt hsound, ?_⟩
          rw [Node.count, hused]
          omega
      | object =>
        obtain ⟨hnumeric, hrows, hcolumns⟩ := hd.object hcls
        dsimp only
        split
        case isTrue htype =>
          refine hsampler.bind fun states used hstates => .pure ⟨rfl, Node.sound_sampler
            ⟨helements, hcls, htype, hrows, hcolumns, hstates.operations⟩ hlt hstates.sound, ?_⟩
          rw [Node.count, hstates.count]
          omega
        case isFalse htype =>
          refine (yields_readObject (d := d.element) ⟨hd.numeric, hd.object, hd.struct⟩ hcls
            helements (Bool.eq_false_iff.2 htype) hlt).mono fun n used hn => ?_
          rwa [Nat.add_comm]
      | _ =>
        obtain ⟨hnumeric, hrows, hcolumns⟩ := hd.numeric (by rw [hcls]; rfl)
        refine .bind (NodeReader.Yields.repeated (k := fun _ => 0) (P := fun _ => True)
          ((NodeReader.Yields.lift (.any _)).mono fun _ _ h => h) d.wordCount) ?_
        rintro ws used ⟨hlength, -, hused⟩
        refine .pure ⟨rfl, Node.sound_words ⟨helements, by rw [Declaration.element, hcls]; rfl,
          hnumeric, hrows, hcolumns, ?_⟩ hlt, ?_⟩
        · exact hlength.trans (hrows.toNat_mul hcolumns)
        · rw [hused, Node.count]
          simp

lemma yields_readMembers (p : Place)
    (hsampler : readSampler.Yields (ReadsStates objectCount p.state))
    (types : List TypeDef) {depth : Nat} (htypes : ∀ t ∈ types, t.Fits depth)
    (hdepth : p.depth + depth ≤ depthLimit) :
    (readMembers objectCount readSampler types).Yields fun nodes used =>
      (∀ n ∈ nodes, n.Sound objectCount p) ∧ used = Node.countOf nodes := by
  cases types with
  | nil => exact .pure ⟨fun _ h => (by cases h), rfl⟩
  | cons type rest =>
    obtain ⟨d, members⟩ := type
    have htype := htypes _ List.mem_cons_self
    have hlt : p.depth < depthLimit := by
      cases htype
      omega
    rw [readMembers]
    refine (yields_expand hlt (yields_readOne p hsampler (.mk d members) htype hdepth)).bind ?_
    intro node used hnode
    refine (yields_readMembers p hsampler rest (fun t ht => htypes t (List.mem_cons_of_mem _ ht))
      hdepth).bind ?_
    rintro nodes used' ⟨hnodes, hused'⟩
    refine .pure ⟨List.forall_mem_cons.2 ⟨hnode.sound, hnodes⟩, ?_⟩
    rw [Node.countOf, hnode.count, hused']
    rfl

end

end

variable (objectCount) in
/-- Whatever is read at a place from a type and a value is sound. -/
lemma yields_readTyped (depth : Nat) (p : Place) (hstructs : p.structs = 0)
    (hdepth : p.depth + depth ≤ depthLimit) (typeOffset valueOffset : UInt32) :
    (readTyped objectCount depth typeOffset valueOffset).Yields fun n used =>
      n.Sound objectCount p ∧ used = n.count := by
  have hread : ∀ depth, p.depth + depth ≤ depthLimit →
      ∀ inner : UInt32 → UInt32 → NodeReader Node,
      (∀ type value, (inner type value).Yields fun n used =>
        n.Sound objectCount p.state ∧ used = n.count) →
      (readTyped.read objectCount depth typeOffset valueOffset inner).Yields fun n used =>
        n.Sound objectCount p ∧ used = n.count := by
    intro depth hdepth inner hinner
    have htype := (yields_readType depth).elsewhere typeOffset.toNat
    refine (NodeReader.Yields.lift htype).bind ?_
    rintro ⟨d, members⟩ used ⟨htype, rfl⟩
    have hlt : p.depth < depthLimit := by
      cases htype
      omega
    have hsampler : NodeReader.Yields (do
        readStates inner (← liftM (Reader.word "sampler state count")))
        (ReadsStates objectCount p.state) :=
      .skip fun count => yields_readStates hinner count
    have hone := yields_readOne p hsampler (.mk d members) htype hdepth
    refine ((yields_expand hlt hone).elsewhere _).mono fun n used hn => ⟨hn.sound, ?_⟩
    rw [hn.count, Nat.zero_add]
  match depth with
  | 0 => exact .throw _
  | 1 => exact hread 1 hdepth _ fun _ _ => .throw _
  | depth + 2 =>
    refine hread (depth + 2) hdepth _ fun type value => ?_
    refine yields_readTyped depth p.state rfl ?_ type value
    rw [Place.depth_state p hstructs]
    omega

/-! ### Records -/

/-- A list of values was read, all at the outermost place. -/
def ReadsNotes (objectCount : UInt32) (notes : List Node) (used : Nat) : Prop :=
  (∀ n ∈ notes, n.Sound objectCount {}) ∧ used = Node.countOf notes

lemma yields_readAnnotations (count : UInt32) :
    (readAnnotations objectCount count).Yields (ReadsNotes objectCount) := by
  refine .skip fun _ => ?_
  have hnote := yields_readTyped objectCount depthLimit {} rfl (Nat.le_refl _)
  refine (NodeReader.Yields.repeated (P := (·.Sound objectCount {})) (k := Node.count)
    (.skip fun type => .skip fun value => hnote type value) count.toNat).mono ?_
  rintro notes used ⟨-, hnotes, hused⟩
  exact ⟨hnotes, hused.trans (Node.countOf_eq_sum notes).symm⟩

/-- All in a parameter is sound. -/
def SoundParameter (objectCount : UInt32) (r : ParameterRecord) : Prop :=
  r.node.Sound objectCount {} ∧ ∀ n ∈ r.annotations, n.Sound objectCount {}

lemma yields_readParameter : (readParameter objectCount).Yields fun r used =>
    SoundParameter objectCount r ∧ used = r.nodeCount := by
  refine .skip fun type => .skip fun value => .skip fun flags => .skip fun count => ?_
  refine (yields_readAnnotations count).bind fun notes used hnotes => ?_
  have hvalue := yields_readTyped objectCount depthLimit {} rfl (Nat.le_refl _) type value
  refine hvalue.bind fun n used' hn => ?_
  exact .pure ⟨⟨hn.1, hnotes.1⟩, by rw [ParameterRecord.nodeCount, hnotes.2, hn.2]; rfl⟩

/-- All in a pass is sound. -/
structure SoundPass (objectCount : UInt32) (p : PassRecord) : Prop where
  notes : ∀ n ∈ p.annotations, n.Sound objectCount {}
  operations : ∀ s ∈ p.states, s.operation.toNat < StateTable.size
  states : ∀ s ∈ p.states, s.value.Sound objectCount { inPass := true }

lemma yields_readPass : (readPass objectCount).Yields fun p used =>
    SoundPass objectCount p ∧ used = p.nodeCount := by
  refine .skip fun _ => .skip fun name => .skip fun noteCount => .skip fun stateCount => ?_
  refine (yields_readAnnotations noteCount).bind fun notes used hnotes => ?_
  have hvalue := yields_readTyped objectCount (depthLimit - 1) { inPass := true }
    rfl (by decide)
  refine (yields_readStates hvalue stateCount).bind fun states used' hstates => .pure ?_
  exact ⟨⟨hnotes.1, hstates.operations, hstates.sound⟩, by
    rw [PassRecord.nodeCount, hnotes.2, hstates.count]; rfl⟩

/-- All in a technique is sound. -/
def SoundTechnique (objectCount : UInt32) (t : TechniqueRecord) : Prop :=
  (∀ n ∈ t.annotations, n.Sound objectCount {}) ∧ ∀ p ∈ t.passes, SoundPass objectCount p

lemma yields_readTechnique : (readTechnique objectCount).Yields fun t used =>
    SoundTechnique objectCount t ∧ used = t.nodeCount := by
  refine .skip fun _ => .skip fun name => .skip fun noteCount => .skip fun passCount => ?_
  refine (yields_readAnnotations noteCount).bind fun notes used hnotes => .skip fun _ => ?_
  refine (NodeReader.Yields.repeated yields_readPass passCount.toNat).bind ?_
  rintro passes used' ⟨-, hpasses, hused'⟩
  exact .pure ⟨⟨hnotes.1, hpasses⟩, by rw [TechniqueRecord.nodeCount, hnotes.2, hused']; rfl⟩

lemma yields_readObjectData : (readObjectData objectCount).Yields fun d => d.id < objectCount := by
  refine .bind (.any _) fun id _ => ?_
  split
  case isTrue => exact .bind (.throw _ (P := fun _ => False)) fun _ h => h.elim
  case isFalse hid =>
    exact .bind (.any _) fun _ _ => .bind (.any _) fun _ _ => .pure (UInt32.not_le.1 hid)

/-! ### Images -/

lemma wellFormed_of_sound {im : Image}
    (hparameters : ∀ r ∈ im.parameters, SoundParameter im.objectCount r)
    (htechniques : ∀ t ∈ im.techniques, SoundTechnique im.objectCount t)
    (hdata : ∀ d ∈ im.objectData, d.id < im.objectCount) (hcount : im.nodeCount ≤ nodeLimit) :
    im.WellFormed := by
  have hsound : ∀ n p, im.Contains n p → n.Valid im.objectCount ∧ p.depth < depthLimit := by
    intro n p hcontains
    cases hcontains with
    | parameter hr h => exact (hparameters _ hr).1 n p h
    | parameterNote hr hnote h => exact (hparameters _ hr).2 _ hnote n p h
    | techniqueNote ht hnote h => exact (htechniques _ ht).1 _ hnote n p h
    | passNote ht hp hnote h => exact ((htechniques _ ht).2 _ hp).notes _ hnote n p h
    | passState ht hp hs h => exact ((htechniques _ ht).2 _ hp).states _ hs n p h
  exact {
    valid := fun n p h => (hsound n p h).1
    depth_lt := fun n p h => (hsound n p h).2
    operations := fun t ht p hp => ((htechniques t ht).2 p hp).operations
    objectData := hdata
    nodeCount_le := hcount }

lemma yields_readRecords : readRecords.Yields WellFormed := by
  refine .bind (.any _) fun parameterCount _ => .bind (.any _) fun techniqueCount _ =>
    .bind (.any _) fun _ _ => .bind (.any _) fun objectCount _ => .bind (.any _) fun _ _ =>
    .bind (.any _) fun _ _ => ?_
  have hnodes : NodeReader.Yields (do
      let parameters ← repeated (readParameter objectCount) parameterCount.toNat []
      let techniques ← repeated (readTechnique objectCount) techniqueCount.toNat []
      return (parameters, techniques)) fun r used =>
        (∀ p ∈ r.1, SoundParameter objectCount p) ∧ (∀ t ∈ r.2, SoundTechnique objectCount t) ∧
          used = (r.1.map ParameterRecord.nodeCount).sum +
            (r.2.map TechniqueRecord.nodeCount).sum := by
    refine (NodeReader.Yields.repeated yields_readParameter _).bind ?_
    rintro parameters used ⟨-, hparameters, rfl⟩
    refine (NodeReader.Yields.repeated yields_readTechnique _).bind ?_
    rintro techniques used ⟨-, htechniques, rfl⟩
    exact .pure ⟨hparameters, htechniques, rfl⟩
  refine .bind (hnodes.run nodeLimit) ?_
  rintro ⟨⟨parameters, techniques⟩, left⟩ ⟨used, hused, hparameters, htechniques, hcount⟩
  refine .bind (.any _) fun dataCount _ => .bind (.any _) fun resourceCount _ =>
    .bind (.any _) fun _ _ => .bind (.any _) fun _ _ => ?_
  refine .bind (yields_readObjectData.times _) fun objectData hdata =>
    .bind (.any _) fun resources _ => .pure ?_
  refine wellFormed_of_sound hparameters htechniques hdata.2 ?_
  rw [nodeCount, ← hcount, hused]
  exact Nat.le_add_left _ _

lemma exists_readRecords_of_decode {stored : Bytes} {im : Image} (h : decode stored = .ok im) :
    ∃ data position position', readRecords data position = .ok (im, position') := by
  obtain ⟨found, -, h⟩ := exists_of_bind_eq_ok h
  split at h
  case isTrue => cases h
  case isFalse =>
    obtain ⟨start, -, h⟩ := exists_of_bind_eq_ok h
    rw [Reader.runAt] at h
    split at h
    case h_1 hread =>
      cases h
      exact ⟨_, _, _, hread⟩
    case h_2 => cases h

lemma WellFormed.of_decode {stored : Bytes} {im : Image} (h : decode stored = .ok im) :
    im.WellFormed := by
  obtain ⟨data, position, position', hread⟩ := exists_readRecords_of_decode h
  exact yields_readRecords data position im position' hread

/-- The values of the parameters of an image that was read are sound. -/
lemma sound_of_mem_parameters {stored : Bytes} {im : Image} (h : decode stored = .ok im)
    {r : ParameterRecord} (hr : r ∈ im.parameters) : r.node.Sound im.objectCount {} := by
  have hformed := WellFormed.of_decode h
  intro n p hn
  exact ⟨hformed.valid n p (.parameter hr hn), hformed.depth_lt n p (.parameter hr hn)⟩

/-- Every image that is read from stored data is well formed, whatever the data. -/
theorem wellFormed_of_decode {stored : Bytes} {im : Image} (h : decode stored = .ok im) :
    im.WellFormed :=
  WellFormed.of_decode h

lemma eq_ok_of_toOption_eq_some {ε α : Type} {answer : Except ε α} {a : α}
    (h : answer.toOption = some a) : answer = .ok a := by
  cases answer with
  | ok a' => exact congrArg _ (Option.some.inj h)
  | error e => cases h

/-- An effect of two samplers, the first of which sets one state. -/
def samplerPair : WrittenEffect where
  parameters := [⟨(WrittenType.object 12 "maps").array 2,
    [.sampler [.dword 155 0 3], .sampler []], 0, []⟩]
  techniques := []
  objectCount := 0
  objectData := []
  resources := []

/-- What is written of the two samplers is read as a well-formed image. -/
theorem wellFormed_of_decode_samplerPair :
    ∃ im, decode (encode samplerPair).toArray = .ok im ∧ im.WellFormed := by
  obtain ⟨im, him⟩ := Option.isSome_iff_exists.1
    (show (decode (encode samplerPair).toArray).toOption.isSome = true by decide +kernel)
  have hdecode := eq_ok_of_toOption_eq_some him
  exact ⟨im, hdecode, wellFormed_of_decode hdecode⟩

end Image

end ShaderEffect
