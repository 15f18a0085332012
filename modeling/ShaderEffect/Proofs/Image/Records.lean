import ShaderEffect.Proofs.Image.Filled

/-!
# Records that are written

Parameters, techniques and passes are records that point to names, types and values. They are read
one after the other, annotations and states with the record they belong to
(`writes_parameterWords`, `writes_techniqueWords`).
-/

namespace ShaderEffect

variable {α : Type} {objectCount : UInt32} {data : Bytes}

/-! ### Sizes -/

/-- The parts of a pass can be counted by words. -/
structure WrittenPass.IsSized (p : WrittenPass) : Prop where
  notes : p.notes.length < 2 ^ 32
  states : p.states.length < 2 ^ 32

/-- The parts of a technique can be counted by words. -/
structure WrittenTechnique.IsSized (t : WrittenTechnique) : Prop where
  notes : t.notes.length < 2 ^ 32
  passes : t.passes.length < 2 ^ 32
  pass : ∀ p ∈ t.passes, p.IsSized

namespace Image

/-! ### Annotations -/

variable (objectCount data) in
/-- Words that are records of annotations. -/
inductive SpellsNotes : List Node → List UInt32 → Prop
  | nil : SpellsNotes [] []
  | cons {typeOffset valueOffset : UInt32} {n : Node} {ns : List Node} {ws : List UInt32} :
      Stands objectCount data typeOffset valueOffset n → SpellsNotes ns ws →
      SpellsNotes (n :: ns) (typeOffset :: valueOffset :: ws)

lemma SpellsNotes.length_eq {ns : List Node} {ws : List UInt32}
    (h : SpellsNotes objectCount data ns ws) : ws.length = 2 * ns.length := by
  induction h with
  | nil => rfl
  | cons _ _ ih =>
    simp only [List.length_cons, ih]
    omega

variable (objectCount) in
lemma writes_noteWords (notes : List WrittenNote) :
    (noteWords notes).Writes data fun ws => ∀ found, notes? objectCount notes = some found →
      found.length = notes.length ∧ SpellsNotes objectCount data found ws := by
  induction notes with
  | nil =>
    refine .pure fun found hfound => ?_
    cases hfound
    exact ⟨rfl, .nil⟩
  | cons note rest ih =>
    rw [noteWords]
    refine (writes_emitType note.type).bind fun typeOffset =>
      (writes_emitValue objectCount note.value).bind fun valueOffset => ih.bind fun ws =>
      .pure fun hrest hvalue htype found hfound => ?_
    obtain ⟨n, hnode, hfound⟩ := Option.bind_eq_some_iff.1 hfound
    obtain ⟨others, hothers, hfound⟩ := Option.bind_eq_some_iff.1 hfound
    cases hfound
    obtain ⟨hlength, hspells⟩ := hrest others hothers
    exact ⟨congrArg (· + 1) hlength, .cons (stands_of_node? hnode htype hvalue) hspells⟩

lemma consumes_readAnnotations {count : UInt32} {ns : List Node} {ws : List UInt32}
    (hcount : count.toNat = ns.length) (hspells : SpellsNotes objectCount data ns ws)
    (hshallow : ∀ n ∈ ns, n.Shallow {}) :
    (readAnnotations objectCount count).Consumes data (Node.countOf ns) (Word.listBytes ws) ns := by
  apply NodeReader.Consumes.of_length_le
  intro hsize
  have hroom : count.toNat * 8 ≤ data.size := by
    rw [length_listBytes, hspells.length_eq] at hsize
    omega
  rw [readAnnotations]
  refine .skip_nil (.checkCount hroom "annotation") ?_
  rw [hcount]
  clear hroom hsize hcount
  induction hspells with
  | nil => exact .repeated_zero _
  | @cons typeOffset valueOffset n ns ws hstands _ ih =>
    obtain ⟨hn, hothers⟩ := List.forall_mem_cons.1 hshallow
    show NodeReader.Consumes _ data (n.count + Node.countOf ns)
      (Word.listBytes [typeOffset, valueOffset] ++ Word.listBytes ws) _
    refine .repeated_succ (.skip (.word typeOffset _) (.skip (.word valueOffset _) ?_)) (ih hothers)
    exact hstands depthLimit {} rfl rfl hn

/-! ### Records -/

/-- Words from which some number of records is read, each of which takes some least number of
words. -/
structure SpellsRecords (data : Bytes) (reader : NodeReader α) (used : α → Nat) (least n : Nat)
    (as : List α) (ws : List UInt32) : Prop where
  length_eq : as.length = n
  le_length : n * least ≤ ws.length
  consumes : (repeated reader n []).Consumes data (as.map used).sum (Word.listBytes ws) as

namespace SpellsRecords

variable {reader : NodeReader α} {used : α → Nat} {least n : Nat}

lemma nil : SpellsRecords data reader used least 0 [] [] :=
  ⟨rfl, by simp, .repeated_zero reader⟩

lemma cons {a : α} {as : List α} {ws ws' : List UInt32}
    (h : reader.Consumes data (used a) (Word.listBytes ws) a) (hleast : least ≤ ws.length)
    (hrest : SpellsRecords data reader used least n as ws') :
    SpellsRecords data reader used least (n + 1) (a :: as) (ws ++ ws') where
  length_eq := congrArg (· + 1) hrest.length_eq
  le_length := by
    rw [Nat.succ_mul, List.length_append]
    have := hrest.le_length
    omega
  consumes := by
    rw [listBytes_append]
    exact h.repeated_succ hrest.consumes

end SpellsRecords

lemma consumes_readParameter {typeOffset valueOffset flags count : UInt32} {r : ParameterRecord}
    {ws : List UInt32} (hflags : flags = r.flags) (hcount : count.toNat = r.annotations.length)
    (hnode : Stands objectCount data typeOffset valueOffset r.node)
    (hnotes : SpellsNotes objectCount data r.annotations ws) (hr : r.Shallow) :
    (readParameter objectCount).Consumes data r.nodeCount
      (Word.listBytes ([typeOffset, valueOffset, flags, count] ++ ws)) r := by
  subst hflags
  rw [readParameter]
  refine .skip (.word typeOffset _) (.skip (.word valueOffset _) (.skip (.word r.flags _)
    (.skip (.word count _) ?_)))
  show NodeReader.Consumes _ data _ (Word.listBytes ws) _
  rw [← List.append_nil (Word.listBytes ws)]
  exact (consumes_readAnnotations hcount hnotes hr.annotations).bind
    (hnode depthLimit {} rfl rfl hr.node).bind_pure

variable (objectCount) in
lemma writes_parameterWords (ps : List WrittenParameter)
    (hsized : ∀ p ∈ ps, p.notes.length < 2 ^ 32) :
    (parameterWords ps).Writes data fun ws => ∀ found, parameters? objectCount ps = some found →
      (∀ r ∈ found, r.Shallow) → SpellsRecords data (readParameter objectCount)
        ParameterRecord.nodeCount 4 ps.length found ws := by
  induction ps with
  | nil =>
    refine .pure fun found hfound _ => ?_
    cases hfound
    exact .nil
  | cons p rest ih =>
    obtain ⟨hp, hothers⟩ := List.forall_mem_cons.1 hsized
    rw [parameterWords]
    refine (writes_emitType p.type).bind fun typeOffset =>
      (writes_emitValue objectCount p.value).bind fun valueOffset =>
      (writes_noteWords objectCount p.notes).bind fun notes => (ih hothers).bind fun ws =>
      .pure fun hrest hnotes hvalue htype found hfound hshallow => ?_
    obtain ⟨n, hnode, hfound⟩ := Option.bind_eq_some_iff.1 hfound
    obtain ⟨ns, hns, hfound⟩ := Option.bind_eq_some_iff.1 hfound
    obtain ⟨others, hothers, hfound⟩ := Option.bind_eq_some_iff.1 hfound
    cases hfound
    obtain ⟨hr, hshallow⟩ := List.forall_mem_cons.1 hshallow
    obtain ⟨hlength, hspells⟩ := hnotes ns hns
    refine .cons (consumes_readParameter rfl ?_ (stands_of_node? hnode htype hvalue) hspells hr)
      (by simp) (hrest others hothers hshallow)
    rw [toNat_ofNat_of_lt hp]
    exact hlength.symm

lemma consumes_readPass {nameOffset noteCount stateCount : UInt32} {p : PassRecord}
    {ws ws' : List UInt32} (hname : (readName nameOffset).Consumes data [] p.name)
    (hnoteCount : noteCount.toNat = p.annotations.length)
    (hstateCount : stateCount.toNat = p.states.length)
    (hnotes : SpellsNotes objectCount data p.annotations ws)
    (hstates : SpellsStates objectCount data p.states ws') (hp : p.Shallow) :
    (readPass objectCount).Consumes data p.nodeCount
      (Word.listBytes ([nameOffset, noteCount, stateCount] ++ (ws ++ ws'))) p := by
  have hvalues : ReadsValues objectCount data { inPass := true }
      (readTyped objectCount (depthLimit - 1)) :=
    fun _ _ _ hstands hn => hstands (depthLimit - 1) _ rfl rfl hn
  rw [readPass]
  refine .skip (.word nameOffset _) (.skip_nil hname (.skip (.word noteCount _)
    (.skip (.word stateCount _) ?_)))
  show NodeReader.Consumes _ data _ (Word.listBytes (ws ++ ws')) _
  rw [listBytes_append]
  exact (consumes_readAnnotations hnoteCount hnotes hp.annotations).bind
    (consumes_readStates hvalues hstateCount hstates hp.states).bind_pure

variable (objectCount) in
lemma writes_passWords (ps : List WrittenPass) (hsized : ∀ p ∈ ps, p.IsSized) :
    (passWords ps).Writes data fun ws => ∀ found, passes? objectCount ps = some found →
      (∀ p ∈ found, p.Shallow) →
      SpellsRecords data (readPass objectCount) PassRecord.nodeCount 3 ps.length found ws := by
  induction ps with
  | nil =>
    refine .pure fun found hfound _ => ?_
    cases hfound
    exact .nil
  | cons p rest ih =>
    obtain ⟨hp, hothers⟩ := List.forall_mem_cons.1 hsized
    rw [passWords]
    refine (writes_emitName p.name).bind fun nameOffset =>
      (writes_noteWords objectCount p.notes).bind fun notes =>
      (writes_statesWords objectCount p.states).bind fun states =>
      (ih hothers).bind fun ws => .pure fun hrest hstates hnotes hname found hfound hshallow => ?_
    obtain ⟨ns, hns, hfound⟩ := Option.bind_eq_some_iff.1 hfound
    obtain ⟨assignments, hassignments, hfound⟩ := Option.bind_eq_some_iff.1 hfound
    obtain ⟨others, hothers, hfound⟩ := Option.bind_eq_some_iff.1 hfound
    split at hfound
    case isFalse => cases hfound
    case isTrue hplain =>
      cases hfound
      obtain ⟨hr, hshallow⟩ := List.forall_mem_cons.1 hshallow
      obtain ⟨hlength, hspells⟩ := hnotes ns hns
      obtain ⟨hlength', hspells'⟩ := hstates
      have hstates := hspells' assignments hassignments
      rw [List.append_assoc [nameOffset, _, _]]
      refine .cons (consumes_readPass (hname hplain) ?_ ?_ hspells hstates hr) (by simp)
        (hrest others hothers hshallow)
      · rw [toNat_ofNat_of_lt hp.notes]
        exact hlength.symm
      · rw [toNat_ofNat_of_lt hp.states]
        have := hstates.length_eq
        show p.states.length = assignments.length
        omega

lemma consumes_readTechnique {nameOffset noteCount passCount : UInt32} {t : TechniqueRecord}
    {ws ws' : List UInt32} (hname : (readName nameOffset).Consumes data [] t.name)
    (hnoteCount : noteCount.toNat = t.annotations.length)
    (hnotes : SpellsNotes objectCount data t.annotations ws)
    (hpasses : SpellsRecords data (readPass objectCount) PassRecord.nodeCount 3 passCount.toNat
      t.passes ws') (ht : t.Shallow) :
    (readTechnique objectCount).Consumes data t.nodeCount
      (Word.listBytes ([nameOffset, noteCount, passCount] ++ (ws ++ ws'))) t := by
  apply NodeReader.Consumes.of_length_le
  intro hsize
  have hroom : passCount.toNat * 12 ≤ data.size := by
    have := hpasses.le_length
    simp only [length_listBytes, List.length_append] at hsize
    omega
  rw [readTechnique]
  refine .skip (.word nameOffset _) (.skip_nil hname (.skip (.word noteCount _)
    (.skip (.word passCount _) ?_)))
  show NodeReader.Consumes _ data _ (Word.listBytes (ws ++ ws')) _
  rw [listBytes_append]
  exact (consumes_readAnnotations hnoteCount hnotes ht.annotations).bind
    (.skip_nil (.checkCount hroom _) hpasses.consumes.bind_pure)

variable (objectCount) in
lemma writes_techniqueWords (ts : List WrittenTechnique) (hsized : ∀ t ∈ ts, t.IsSized) :
    (techniqueWords ts).Writes data fun ws => ∀ found, techniques? objectCount ts = some found →
      (∀ t ∈ found, t.Shallow) → SpellsRecords data (readTechnique objectCount)
        TechniqueRecord.nodeCount 3 ts.length found ws := by
  induction ts with
  | nil =>
    refine .pure fun found hfound _ => ?_
    cases hfound
    exact .nil
  | cons t rest ih =>
    obtain ⟨ht, hothers⟩ := List.forall_mem_cons.1 hsized
    rw [techniqueWords]
    refine (writes_emitName t.name).bind fun nameOffset =>
      (writes_noteWords objectCount t.notes).bind fun notes =>
      (writes_passWords objectCount t.passes ht.pass).bind fun passes =>
      (ih hothers).bind fun ws => .pure fun hrest hpasses hnotes hname found hfound hshallow => ?_
    obtain ⟨ns, hns, hfound⟩ := Option.bind_eq_some_iff.1 hfound
    obtain ⟨records, hrecords, hfound⟩ := Option.bind_eq_some_iff.1 hfound
    obtain ⟨others, hothers, hfound⟩ := Option.bind_eq_some_iff.1 hfound
    split at hfound
    case isFalse => cases hfound
    case isTrue hplain =>
      cases hfound
      obtain ⟨hr, hshallow⟩ := List.forall_mem_cons.1 hshallow
      obtain ⟨hlength, hspells⟩ := hnotes ns hns
      rw [List.append_assoc [nameOffset, _, _]]
      refine .cons (consumes_readTechnique (hname hplain) ?_ hspells ?_ hr) (by simp)
        (hrest others hothers hshallow)
      · rw [toNat_ofNat_of_lt ht.notes]
        exact hlength.symm
      · rw [toNat_ofNat_of_lt ht.passes]
        exact hpasses records hrecords hr.passes

end Image

end ShaderEffect
