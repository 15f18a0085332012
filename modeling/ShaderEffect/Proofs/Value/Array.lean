import ShaderEffect.Proofs.Value.Grounded

/-!
# Arrays of vectors and of matrices

An accessor of several elements looks at the array once, and then goes through elements with the
accessor of one. The array declares what each of its elements is, so once the array is accepted no
element is refused: elements are exchanged all or not at all (`EffectState.SetsAll`,
`EffectState.GetsAll`).
-/

namespace ShaderEffect

/-! ### Members apart -/

namespace Slice

/-- Slices that follow one another have no common place. -/
lemma Follow.pairwise {start stop : Nat} {slices : List Slice} (h : Follow start slices stop) :
    (∀ s ∈ slices, start ≤ s.start) ∧ slices.Pairwise fun s s' => s.stop ≤ s'.start := by
  induction slices generalizing start with
  | nil => exact ⟨nofun, .nil⟩
  | cons s rest ih =>
    obtain ⟨hstart, hrest⟩ := h
    obtain ⟨hle, hpairs⟩ := ih hrest
    refine ⟨fun s' hs' => ?_, .cons hle hpairs⟩
    rcases List.mem_cons.1 hs' with rfl | hs'
    · exact Nat.le_of_eq hstart.symm
    · exact Nat.le_trans (hstart ▸ Nat.le_add_right ..) (hle s' hs')

end Slice

lemma LinkedEffect.disjoint_of_stop_le {e : LinkedEffect} {h g : Handle} {p q : Parameter}
    (hp : e.tree.node? h = some p) (hq : e.tree.node? g = some q)
    (hle : ∀ k : Storage, (k.slice p).stop ≤ (k.slice q).start) : e.Disjoint h g := by
  intro id k j hh hg
  obtain ⟨p', hp', -, hj⟩ := addresses_singleton.1 hh
  obtain ⟨q', hq', -, hj'⟩ := addresses_singleton.1 hg
  obtain rfl := Option.some.inj (hp.symm.trans hp')
  obtain rfl := Option.some.inj (hq.symm.trans hq')
  exact Nat.lt_irrefl j (Nat.lt_of_lt_of_le hj.2 (Nat.le_trans (hle k) hj'.1))

namespace EffectState

variable {s : EffectState} {l : Link.Linking} {h : Handle} {p : Parameter}

/-- The members of a node address no common place. -/
lemma Grounded.pairwise_disjoint (hs : s.Grounded l) (hp : s.tree.node? h = some p) :
    p.members.Pairwise s.linked.Disjoint := by
  rcases List.eq_nil_or_concat p.members with hnone | ⟨before, j, hmembers⟩
  · rw [hnone]
    exact .nil
  obtain ⟨qs, hqs, hfollow⟩ := hs.exists_parts hp (j := j) (by simp [hmembers])
  have hpairs : ∀ k : Storage, qs.Pairwise fun q q' => (k.slice q).stop ≤ (k.slice q').start :=
    fun k => List.pairwise_map.1 (hfollow k).pairwise.2
  have hapart : (qs.map some).Pairwise fun o o' => ∀ q q', o = some q → o' = some q' →
      ∀ k : Storage, (k.slice q).stop ≤ (k.slice q').start := by
    refine List.pairwise_map.2 (((hpairs .words).and (hpairs .objects)).imp ?_)
    rintro _ _ hle q q' ⟨⟩ ⟨⟩ k
    cases k with
    | words => exact hle.1
    | objects => exact hle.2
  rw [← hqs, List.pairwise_map] at hapart
  refine hapart.imp_of_mem fun ha hb hle => ?_
  obtain ⟨q, hq, -⟩ := hs.exists_member hp ha
  obtain ⟨q', hq', -⟩ := hs.exists_member hp hb
  exact LinkedEffect.disjoint_of_stop_le hq hq' (hle q q' hq hq')

/-! ### The check of the array -/

/-- No elements, or the first ones of an array of a class. -/
def Offers (s : EffectState) (h : Handle) (cls : ParameterClass) (count : Nat) : Prop :=
  count = 0 ∨ ∃ p, s.tree.node? h = some p ∧ p.decl.cls = cls ∧ count ≤ p.decl.elements.toNat

variable {cls : ParameterClass} {count : Nat}

lemma elements_of_offers (hoffers : s.Offers h cls count) :
    s.elements h count cls = .ok (s.firstElements h count) := by
  by_cases hcount : count = 0
  · subst hcount
    rw [elements, if_pos rfl, firstElements]
    split <;> rfl
  · obtain ⟨p, hp, hcls, hle⟩ := hoffers.resolve_left hcount
    simp only [elements, if_neg hcount, node_eq_ok_iff.2 hp, if_pos (And.intro hcls hle),
      firstElements, hp]

lemma elements_of_not_offers (hoffers : ¬s.Offers h cls count) :
    ∃ e, s.elements h count cls = .error e := by
  rw [Offers, not_or] at hoffers
  obtain ⟨hcount, hnone⟩ := hoffers
  rw [elements, if_neg hcount]
  cases hp : s.tree.node? h with
  | none => exact ⟨.badParameter, by rw [node, hp]⟩
  | some p =>
    refine ⟨.arrayShape, ?_⟩
    rw [node_eq_ok_iff.2 hp]
    exact if_neg fun hshape => hnone ⟨p, hp, hshape⟩

/-- An array that is accepted has as many elements, and each is of the class by itself. -/
lemma Grounded.firstElements (hs : s.Grounded l) (hoffers : s.Offers h cls count) :
    (s.firstElements h count).length = count ∧ ∀ j ∈ s.firstElements h count,
      ∃ q, s.tree.node? j = some q ∧ q.decl.cls = cls ∧ q.decl.elements = 0 := by
  by_cases hcount : count = 0
  · subst hcount
    have hnil : s.firstElements h 0 = [] := by
      rw [EffectState.firstElements]
      split <;> rfl
    rw [hnil]
    exact ⟨rfl, fun j hj => absurd hj List.not_mem_nil⟩
  · obtain ⟨p, hp, hcls, hle⟩ := hoffers.resolve_left hcount
    have hfirst : s.firstElements h count = p.members.take count := by
      rw [EffectState.firstElements, hp]
    have helements : p.decl.elements ≠ 0 := fun hzero => by
      rw [hzero] at hle
      exact hcount (Nat.le_zero.1 hle)
    obtain ⟨hlength, hmembers⟩ := hs.members_of_array hp helements
    rw [hfirst, List.length_take, hlength, Nat.min_eq_left hle]
    refine ⟨rfl, fun j hj => ?_⟩
    obtain ⟨q, hq, hdecl⟩ := hmembers j (List.mem_of_mem_take hj)
    exact ⟨q, hq, hdecl ▸ hcls, hdecl ▸ rfl⟩

/-! ### Loops -/

/-- Parameters are written one after the other, each with success. -/
inductive WrittenInTurn {α : Type} (set : EffectState → Handle → α → Except CallError EffectState) :
    EffectState → List Handle → List α → EffectState → Prop
  | nil (s : EffectState) : WrittenInTurn set s [] [] s
  | cons {s s' s'' : EffectState} {h : Handle} {a : α} {hs : List Handle} {values : List α} :
      set s h a = .ok s' → WrittenInTurn set s' hs values s'' →
      WrittenInTurn set s (h :: hs) (a :: values) s''

variable {α : Type}

/-- A loop of writes that all succeed. -/
lemma writeEach_eq {write set : EffectState → Handle → α → Except CallError EffectState}
    {hs : List Handle} {values : List α} (hlength : hs.length = values.length)
    (hwrite : ∀ s' : EffectState, s'.linked = s.linked → ∀ j ∈ hs, ∀ a, ∃ s'',
      write s' j a = .ok s'' ∧ set s' j a = .ok s'' ∧ s''.linked = s'.linked) :
    ∃ s', writeEach write s (hs.zip values) = ⟨s', .ok ()⟩ ∧ WrittenInTurn set s hs values s' := by
  induction hs generalizing s values with
  | nil =>
    obtain rfl := List.eq_nil_of_length_eq_zero hlength.symm
    exact ⟨s, rfl, .nil s⟩
  | cons h hs ih =>
    obtain ⟨a, values, rfl⟩ := List.exists_cons_of_length_eq_add_one hlength.symm
    obtain ⟨s₁, hfirst, hset, hlinked⟩ := hwrite s rfl h List.mem_cons_self a
    have hlength' : hs.length = values.length := Nat.succ.inj hlength
    obtain ⟨s', hrest, hturn⟩ := ih hlength' fun s' (hs' : s'.linked = s₁.linked) j hj =>
      hwrite s' (hs'.trans hlinked) j (List.mem_cons_of_mem _ hj)
    refine ⟨s', ?_, .cons hset hturn⟩
    rw [List.zip_cons_cons, writeEach, hfirst]
    exact hrest

/-- A loop of reads that all succeed. -/
lemma readEach_eq {read get : Handle → Except CallError α} {hs : List Handle} {buffer : List α}
    (hlength : hs.length = buffer.length) (hread : ∀ j ∈ hs, ∃ a, read j = .ok a ∧ get j = .ok a) :
    ∃ out, readEach read hs buffer = ⟨out, .ok ()⟩ ∧
      List.Forall₂ (fun j a => get j = .ok a) hs out := by
  induction hs generalizing buffer with
  | nil =>
    obtain rfl := List.eq_nil_of_length_eq_zero hlength.symm
    exact ⟨[], rfl, .nil⟩
  | cons h hs ih =>
    obtain ⟨old, rest, rfl⟩ := List.exists_cons_of_length_eq_add_one hlength.symm
    obtain ⟨a, hread', hget⟩ := hread h List.mem_cons_self
    have hlength' : hs.length = rest.length := Nat.succ.inj hlength
    obtain ⟨out, hout, hturn⟩ := ih hlength' fun j hj => hread j (List.mem_cons_of_mem _ hj)
    refine ⟨a :: out, ?_, .cons hget hturn⟩
    simp only [readEach, hread', hout]

/-- All reads succeed, and what they read is collected. -/
lemma mapM_eq_ok {read : Handle → Except CallError α} {hs : List Handle}
    (hread : ∀ j ∈ hs, ∃ a, read j = .ok a) :
    ∃ values, hs.mapM read = .ok values ∧
      List.Forall₂ (fun j a => read j = .ok a) hs values := by
  induction hs with
  | nil => exact ⟨[], rfl, .nil⟩
  | cons h hs ih =>
    obtain ⟨a, ha⟩ := hread h List.mem_cons_self
    obtain ⟨values, hvalues, hturn⟩ := ih fun j hj => hread j (List.mem_cons_of_mem _ hj)
    refine ⟨a :: values, ?_, .cons ha hturn⟩
    rw [List.mapM_cons, ha, hvalues]
    rfl

/-! ### All or nothing -/

/-- A call sets all of the first elements of an array with the accessor of one, and nothing else, or
it changes nothing. -/
structure SetsAll (set : EffectState → Handle → α → Except CallError EffectState)
    (cls : ParameterClass) (s : EffectState) (h : Handle) (values : List α)
    (result : InPlace EffectState) : Prop where
  succeeds_iff : result.answer = .ok () ↔ s.Offers h cls values.length
  inTurn : result.answer = .ok () →
    WrittenInTurn set s (s.firstElements h values.length) values result.left
  others : result.answer = .ok () → ∀ p, s.tree.node? h = some p →
    ∀ j ∈ p.members.drop values.length, ∀ k : Storage, result.left.values k j = s.values k j
  unchanged : ∀ e, result.answer = .error e → result.left = s

/-- A call reads all of the first elements of an array with the accessor of one, or it leaves the
caller's buffer as it is. -/
structure GetsAll (get : EffectState → Handle → Except CallError α) (cls : ParameterClass)
    (s : EffectState) (h : Handle) (buffer : List α) (result : InPlace (List α)) : Prop where
  succeeds_iff : result.answer = .ok () ↔ s.Offers h cls buffer.length
  inTurn : result.answer = .ok () → List.Forall₂ (fun j a => get s j = .ok a)
    (s.firstElements h buffer.length) result.left
  unchanged : ∀ e, result.answer = .error e → result.left = buffer

namespace Grounded

variable (hs : s.Grounded l)
include hs

/-- A loop over the first elements sets all of them, if no element refuses a value. -/
lemma setsAll (write : EffectState → Handle → α → Except CallError EffectState)
    {set : EffectState → Handle → α → Except CallError EffectState}
    (hwrite : ∀ (s : EffectState) (h : Handle) (p : Parameter), s.tree.node? h = some p →
      p.decl.cls = cls → p.decl.elements = 0 → ∀ a, ∃ f,
        write s h a = .ok (s.writeWords h f) ∧ set s h a = .ok (s.writeWords h f))
    (htrail : ∀ (s s' : EffectState) (h : Handle) (a : α),
      s.linked.counter < s.memory.counters.size → write s h a = .ok s' → Trail s [h] [h] s')
    {values : List α} {result : InPlace EffectState}
    (herror : ∀ e, s.elements h values.length cls = .error e → result = ⟨s, .error e⟩)
    (hok : ∀ hs, s.elements h values.length cls = .ok hs →
      result = writeEach write s (hs.zip values)) : SetsAll set cls s h values result := by
  by_cases hoffers : s.Offers h cls values.length
  · obtain ⟨hlength, hmembers⟩ := hs.firstElements hoffers
    have hwrite' : ∀ s' : EffectState, s'.linked = s.linked →
        ∀ j ∈ s.firstElements h values.length, ∀ a, ∃ s'', write s' j a = .ok s'' ∧
          set s' j a = .ok s'' ∧ s''.linked = s'.linked := fun s' hlinked j hj a => by
      obtain ⟨q, hq, hcls, helements⟩ := hmembers j hj
      rw [EffectState.tree, ← hlinked] at hq
      obtain ⟨f, hwrite, hset⟩ := hwrite s' j q hq hcls helements a
      exact ⟨_, hwrite, hset, linked_writeWords f⟩
    obtain ⟨s', hs', hturn⟩ := writeEach_eq hlength hwrite'
    have hset := (trail_writeEach htrail hs.counter_lt (congrArg InPlace.toExcept hs')).setting
    rw [List.map_fst_zip (Nat.le_of_eq hlength)] at hset
    obtain rfl := (hok _ (elements_of_offers hoffers)).trans hs'
    refine ⟨⟨fun _ => hoffers, fun _ => rfl⟩, fun _ => hturn, fun _ p hp j hj k => ?_,
      fun e he => by cases he⟩
    refine hset.values_eq (fun i hi => ?_) k
    rw [EffectState.firstElements, hp] at hi
    have hapart := hs.pairwise_disjoint hp
    rw [← List.take_append_drop values.length p.members, List.pairwise_append] at hapart
    exact hapart.2.2 i hi j hj
  · obtain ⟨e, he⟩ := elements_of_not_offers hoffers
    obtain rfl := herror e he
    have hfails : ¬(Except.error e : Except CallError Unit) = .ok () := fun hok => by cases hok
    exact ⟨iff_of_false hfails hoffers, fun hok => absurd hok hfails, fun hok => absurd hok hfails,
      fun _ _ => rfl⟩

/-- What is read of the first elements is read of all of them, if no element refuses. -/
lemma getsAll {get : EffectState → Handle → Except CallError α} {buffer : List α}
    {result : InPlace (List α)}
    (herror : ∀ e, s.elements h buffer.length cls = .error e → result = ⟨buffer, .error e⟩)
    (hok : ∀ hs, s.elements h buffer.length cls = .ok hs → hs.length = buffer.length →
      (∀ j ∈ hs, ∃ q, s.tree.node? j = some q ∧ q.decl.cls = cls ∧ q.decl.elements = 0) →
      ∃ out, result = ⟨out, .ok ()⟩ ∧ List.Forall₂ (fun j a => get s j = .ok a) hs out) :
    GetsAll get cls s h buffer result := by
  by_cases hoffers : s.Offers h cls buffer.length
  · obtain ⟨hlength, hmembers⟩ := hs.firstElements hoffers
    obtain ⟨out, rfl, hturn⟩ := hok _ (elements_of_offers hoffers) hlength hmembers
    exact ⟨⟨fun _ => hoffers, fun _ => rfl⟩, fun _ => hturn, fun e he => by cases he⟩
  · obtain ⟨e, he⟩ := elements_of_not_offers hoffers
    obtain rfl := herror e he
    have hfails : ¬(Except.error e : Except CallError Unit) = .ok () := fun hok => by cases hok
    exact ⟨iff_of_false hfails hoffers, fun hok => absurd hok hfails, fun _ _ => rfl⟩

variable (h)

lemma setsAll_vector (values : List Float4) :
    SetsAll setVector .vector s h values (s.writeVectorArray h values) :=
  hs.setsAll setVector (fun s h p hp hcls helements a => by
      have hset : s.setVector h a = .ok (s.writeWords h _) :=
        (writeIf_of_node hp).trans (if_pos (by simp [Parameter.isVector, hcls, helements]))
      exact ⟨_, hset, hset⟩)
    (fun _ _ _ _ hc hs => trail_writeIf hc hs) (fun e he => by rw [writeVectorArray, he])
    (fun hs he => by rw [writeVectorArray, he])

lemma getsAll_vector (buffer : List Float4) :
    GetsAll getVector .vector s h buffer (s.readVectorArray h buffer) := by
  refine hs.getsAll (fun e he => by rw [readVectorArray, he]) fun hs he hlength hmembers => ?_
  have hread : ∀ j ∈ hs, ∃ a, s.getVector j = .ok a := fun j hj => by
    obtain ⟨q, hq, hcls, helements⟩ := hmembers j hj
    exact ⟨_, (readIf_of_node hq).trans (if_pos (by simp [Parameter.isVector, hcls, helements]))⟩
  obtain ⟨values, hvalues, hturn⟩ := mapM_eq_ok hread
  refine ⟨values, ?_, hturn⟩
  simp only [readVectorArray, he, hvalues]
  rw [overlay_eq (hturn.length_eq.symm.trans hlength)]

variable (o : Orientation)

/-- The loop does not look at the shape of an element, and would have accepted it. -/
lemma setsAll_matrix (values : List Matrix4) :
    SetsAll (fun s => s.setMatrix o) .matrixRows s h values (s.writeMatrixArray o h values) :=
  hs.setsAll (fun s => s.storeMatrix o) (fun s h p hp hcls helements a =>
      ⟨_, (writeIf_of_node hp).trans (if_pos rfl), (writeIf_of_node hp).trans
        (if_pos (by simp [Parameter.isMatrix, hcls, helements]))⟩)
    (fun _ _ _ _ hc hs => trail_writeIf hc hs) (fun e he => by rw [writeMatrixArray, he])
    (fun hs he => by rw [writeMatrixArray, he])

lemma getsAll_matrix (buffer : List Matrix4) :
    GetsAll (fun s => s.getMatrix o) .matrixRows s h buffer (s.readMatrixArray o h buffer) := by
  refine hs.getsAll (fun e he => by rw [readMatrixArray, he]) fun hs he hlength hmembers => ?_
  have hsame : ∀ j ∈ hs, ∃ a, s.matrixAt o j = .ok a ∧ s.getMatrix o j = .ok a := fun j hj => by
    obtain ⟨q, hq, hcls, helements⟩ := hmembers j hj
    exact ⟨_, (readIf_of_node hq).trans (if_pos rfl), (readIf_of_node hq).trans
      (if_pos (by simp [Parameter.isMatrix, hcls, helements]))⟩
  obtain ⟨out, hout, hturn⟩ := readEach_eq hlength hsame
  exact ⟨out, by rw [readMatrixArray, he]; exact hout, hturn⟩

end Grounded

/-- Four floats of the least bits. -/
def dusk : Float4 := .ofFn fun i => ⟨(i.val + 1).toUInt32⟩

/-- Accessors of several elements of an array exchange all of them, one after the other with the
accessor of one, or they leave the effect and the caller's buffer as they are. They succeed if the
array is of the right class and has so many elements, or if none are asked for. -/
theorem array_accessors {ops : List HostOperation} (hops : ∀ op ∈ ops, op.FromStored) {i : Nat}
    (hs : (Host.run {} ops).state? i = some s) (h : Handle) :
    (∀ values, SetsAll setVector .vector s h values (s.writeVectorArray h values)) ∧
    (∀ buffer, GetsAll getVector .vector s h buffer (s.readVectorArray h buffer)) ∧
    ∀ o : Orientation,
      (∀ values, SetsAll (fun s => s.setMatrix o) .matrixRows s h values
        (s.writeMatrixArray o h values)) ∧
      ∀ buffer, GetsAll (fun s => s.getMatrix o) .matrixRows s h buffer
        (s.readMatrixArray o h buffer) := by
  obtain ⟨l, hgrounded⟩ := Host.exists_grounded hops hs
  exact ⟨hgrounded.setsAll_vector h, hgrounded.getsAll_vector h, fun o =>
    ⟨hgrounded.setsAll_matrix h o, hgrounded.getsAll_matrix h o⟩⟩

/-- Of two vectors the first is set, and three cannot be. -/
theorem array_accessors_lantern : ∃ s, lantern.state? = some s ∧
    (s.writeVectorArray ⟨5⟩ [dusk]).answer = .ok () ∧
    (s.writeVectorArray ⟨5⟩ [dusk]).left.words ⟨5⟩ = [1, 2, 3, 4, 17, 18, 19, 20] ∧
    (s.writeVectorArray ⟨5⟩ [dusk, dusk, dusk]).left = s ∧
    SetsAll setVector .vector s ⟨5⟩ [dusk, dusk, dusk]
      (s.writeVectorArray ⟨5⟩ [dusk, dusk, dusk]) := by
  obtain ⟨s, hs, hanswer, hwords, hmany⟩ : ∃ s ∈ lantern.state?,
      (s.writeVectorArray ⟨5⟩ [dusk]).answer = .ok () ∧
      (s.writeVectorArray ⟨5⟩ [dusk]).left.words ⟨5⟩ = [1, 2, 3, 4, 17, 18, 19, 20] ∧
      (s.writeVectorArray ⟨5⟩ [dusk, dusk, dusk]).answer = .error .arrayShape := by
    decide +kernel
  obtain ⟨ops, hops, hrun⟩ := WrittenEffect.exists_run hs
  have hall := (array_accessors hops hrun ⟨5⟩).1 [dusk, dusk, dusk]
  exact ⟨s, hs, hanswer, hwords, hall.unchanged _ hmany, hall⟩

end EffectState

end ShaderEffect
