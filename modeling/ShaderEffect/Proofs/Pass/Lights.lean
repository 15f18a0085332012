import ShaderEffect.Proofs.Host.Protocol
import ShaderEffect.Proofs.Pass.Recording
import ShaderEffect.Proofs.Plan.Standing
import ShaderEffect.Proofs.Value.Grounded

/-!
# Lights and the material are sent once

While the states of a pass are applied, fields of lights and of the material are assigned to the
copies that the effect keeps. Only when all states have been applied are the copies sent that were
assigned: lights in ascending order, then the material (`EffectState.Pushes`). What a copy holds by
then is said field by field, from the values that were assigned to the field in turn
(`Fields.words_assignAll`).
-/

namespace ShaderEffect

/-! ### Words of fields -/

/-- The bits of components. -/
def bitsOf {n : Nat} (v : Vector Single n) : List UInt32 := v.toList.map Single.bits

/-- The words of the field of a light that a state operation selects. -/
def Light.field (l : Light) (op : UInt32) : List UInt32 :=
  match op.toNat with
  | 0 => [l.type]
  | 1 => bitsOf l.diffuse
  | 2 => bitsOf l.specular
  | 3 => bitsOf l.ambient
  | 4 => bitsOf l.position
  | 5 => bitsOf l.direction
  | 6 => [l.range.bits]
  | 7 => [l.falloff.bits]
  | 8 => [l.attenuation0.bits]
  | 9 => [l.attenuation1.bits]
  | 10 => [l.attenuation2.bits]
  | 11 => [l.theta.bits]
  | 12 => [l.phi.bits]
  | _ => []

/-- The words of the field of a material that a state operation selects. -/
def Material.field (m : Material) (op : UInt32) : List UInt32 :=
  match op.toNat with
  | 0 => bitsOf m.diffuse
  | 1 => bitsOf m.ambient
  | 2 => bitsOf m.specular
  | 3 => bitsOf m.emissive
  | 4 => [m.power.bits]
  | _ => []

/-- What a field holds once a value is assigned: a field of one component the first word of the
value, zero if it has none; a field of several components the words of the value as far as they
reach, and what it held after these. -/
def reassigned (old new : List UInt32) : List UInt32 :=
  if old.length = 1 then [new.headD 0] else overlay new old

lemma bits_injective : Function.Injective Single.bits := fun ⟨_⟩ ⟨_⟩ h => by cases h; rfl

lemma bitsOf_injective {n : Nat} : Function.Injective (bitsOf (n := n)) := fun _ _ h =>
  Vector.toList_inj.1 (List.map_injective_iff.2 bits_injective h)

lemma length_bitsOf {n : Nat} (v : Vector Single n) : (bitsOf v).length = n := by
  rw [bitsOf, List.length_map, Vector.length_toList]

lemma bitsOf_overwrite {n : Nat} (v : Vector Single n) (words : List UInt32) :
    bitsOf (overwrite v words) = overlay words (bitsOf v) := by
  refine List.ext_getElem? fun k => ?_
  rw [getElem?_overlay, bitsOf, bitsOf, List.length_map, Vector.length_toList, List.getElem?_map,
    List.getElem?_map, Vector.getElem?_toList, Vector.getElem?_toList, overwrite,
    Vector.getElem?_ofFn]
  by_cases hk : k < n
  · by_cases hwords : k < words.length
    · simp [hk, hwords]
    · simp [hk, hwords]
  · simp [hk]

lemma reassigned_bitsOf {n : Nat} (hn : n ≠ 1) (v : Vector Single n) (words : List UInt32) :
    reassigned (bitsOf v) words = bitsOf (overwrite v words) := by
  rw [reassigned, if_neg (by rwa [length_bitsOf]), bitsOf_overwrite]

lemma reassigned_nil (words : List UInt32) : reassigned [] words = [] := by
  simp [reassigned, overlay]

namespace Light

lemma toNat_index (i : Fin count) : (UInt32.ofNat i.val).toNat = i.val :=
  UInt32.toNat_ofNat_of_lt' (Nat.lt_trans i.isLt (by decide))

/-- A light is known from its fields. -/
lemma eq_of_field_eq {l l' : Light} (h : ∀ op, l.field op = l'.field op) : l = l' := by
  have hone : ∀ {x y : Single}, [x.bits] = [y.bits] → x = y := fun hxy =>
    bits_injective (List.singleton_inj.1 hxy)
  obtain ⟨⟩ := l
  obtain ⟨⟩ := l'
  rw [mk.injEq]
  exact ⟨List.singleton_inj.1 (h 0), bitsOf_injective (h 1), bitsOf_injective (h 2),
    bitsOf_injective (h 3), bitsOf_injective (h 4), bitsOf_injective (h 5), hone (h 6), hone (h 7),
    hone (h 8), hone (h 9), hone (h 10), hone (h 11), hone (h 12)⟩

lemma field_setField_self (l : Light) (op : UInt32) (words : List UInt32) :
    (l.setField op words).field op = reassigned (l.field op) words := by
  simp only [setField, field]
  generalize op.toNat = n
  split <;> simp only [reassigned_bitsOf, reassigned_nil, ne_eq, OfNat.ofNat_ne_one,
    not_false_eq_true]
  all_goals rfl

lemma field_setField_of_ne (l : Light) {op op' : UInt32} (h : op' ≠ op) (words : List UInt32) :
    (l.setField op words).field op' = l.field op' := by
  have hne : op'.toNat ≠ op.toNat := fun heq => h (UInt32.toNat_inj.1 heq)
  simp only [setField, field]
  generalize op.toNat = n at hne
  generalize op'.toNat = n' at hne
  split <;> first | rfl | (split <;> first | rfl | exact absurd rfl hne)

end Light

namespace Material

/-- A material is known from its fields. -/
lemma eq_of_field_eq {m m' : Material} (h : ∀ op, m.field op = m'.field op) : m = m' := by
  obtain ⟨⟩ := m
  obtain ⟨⟩ := m'
  rw [mk.injEq]
  exact ⟨bitsOf_injective (h 0), bitsOf_injective (h 1), bitsOf_injective (h 2),
    bitsOf_injective (h 3), bits_injective (List.singleton_inj.1 (h 4))⟩

lemma field_setField_self (m : Material) (op : UInt32) (words : List UInt32) :
    (m.setField op words).field op = reassigned (m.field op) words := by
  simp only [setField, field]
  generalize op.toNat = n
  split <;> simp only [reassigned_bitsOf, reassigned_nil, ne_eq, OfNat.ofNat_ne_one,
    not_false_eq_true]
  all_goals rfl

lemma field_setField_of_ne (m : Material) {op op' : UInt32} (h : op' ≠ op) (words : List UInt32) :
    (m.setField op words).field op' = m.field op' := by
  have hne : op'.toNat ≠ op.toNat := fun heq => h (UInt32.toNat_inj.1 heq)
  simp only [setField, field]
  generalize op.toNat = n at hne
  generalize op'.toNat = n' at hne
  split <;> first | rfl | (split <;> first | rfl | exact absurd rfl hne)

end Material

/-! ### Fields that are assigned in turn -/

/-- The value that an action assigns to a field. -/
def Action.valueFor? (cell : Cell) (a : Action) : Option (List UInt32) :=
  if a.field? = some cell then some a.words else none

namespace Fields

/-- The words of a field; there are no lights beyond the last one. -/
def words (f : Fields) : Cell → List UInt32
  | .state _ => []
  | .light index op =>
    if h : index.toNat < Light.count then f.lights[index.toNat].field op else []
  | .material op => f.material.field op

lemma words_light (f : Fields) (i : Fin Light.count) (op : UInt32) :
    f.words (.light (UInt32.ofNat i) op) = (f.lights.get i).field op := by
  simp only [words, Light.toNat_index, i.isLt, dif_pos]
  rfl

/-- An action changes the field that it assigns, and no other one. -/
lemma words_assign (f : Fields) (a : Action) (cell : Cell) :
    (f.assign a).words cell =
      if a.field? = some cell then reassigned (f.words cell) a.words else f.words cell := by
  cases a with
  | call c => rw [if_neg nofun, assign]
  | material op words =>
    cases cell with
    | material op' =>
      by_cases hop : op' = op
      · subst hop
        rw [if_pos (show Action.field? (.material op' words) = some (.material op') from rfl)]
        exact f.material.field_setField_self op' words
      · rw [if_neg (by simp [Action.field?, Ne.symm hop])]
        exact f.material.field_setField_of_ne hop words
    | state | light => rfl
  | light index op words =>
    by_cases hindex : index.toNat < Light.count
    · cases cell with
      | light index' op' =>
        by_cases hsame : index' = index
        · subst hsame
          by_cases hop : op' = op
          · subst hop
            simp [Action.field?, assign, Fields.words, hindex, Light.setFieldOf,
              Light.field_setField_self, Action.words]
          · simp [Action.field?, assign, Fields.words, hindex, Light.setFieldOf,
              Light.field_setField_of_ne _ hop, Ne.symm hop]
        · have hne : index.toNat ≠ index'.toNat := fun h => hsame (UInt32.toNat_inj.1 h).symm
          simp [Action.field?, assign, Fields.words, hindex, Light.setFieldOf, hne,
            Ne.symm hsame]
      | state | material => simp [Action.field?, assign, hindex, Fields.words]
    · -- beyond the last light there is nothing to assign
      rw [assign, dif_neg hindex]
      split
      · next hcell =>
        cases hcell
        rw [Fields.words, dif_neg hindex, reassigned_nil]
      · rfl

/-- What a field holds after some actions: the values assigned to it, one after the other. -/
lemma words_assignAll (f : Fields) (actions : List Action) (cell : Cell) :
    (f.assignAll actions).words cell =
      (actions.filterMap (Action.valueFor? cell)).foldl reassigned (f.words cell) := by
  induction actions generalizing f with
  | nil => rfl
  | cons a rest ih =>
    rw [assignAll, List.foldl_cons, ← assignAll, ih, words_assign, List.filterMap_cons,
      Action.valueFor?]
    split <;> rfl

end Fields

/-! ### What is sent -/

namespace Action

/-- Whether an action assigns a field of a light. -/
def assignsLight (index : UInt32) : Action → Bool
  | .light index' .. => index' == index
  | _ => false

/-- Whether an action assigns a field of the material. -/
def assignsMaterial : Action → Bool
  | .material .. => true
  | _ => false

end Action

/-- The lights of which some action assigns a field, in ascending order. -/
def lightsAssigned (actions : List Action) : List (Fin Light.count) :=
  (List.finRange Light.count).filter fun i => actions.any (·.assignsLight (UInt32.ofNat i.val))

namespace Action

variable {actions : List Action}

/-- A light that is not assigned has no field that is. -/
lemma filterMap_valueFor?_light {i : Fin Light.count} (h : i ∉ lightsAssigned actions)
    (op : UInt32) : actions.filterMap (valueFor? (.light (UInt32.ofNat i) op)) = [] := by
  rw [lightsAssigned, List.mem_filter, not_and, Bool.not_eq_true, List.any_eq_false] at h
  refine List.filterMap_eq_nil_iff.2 fun a ha => ?_
  have hnot := h (List.mem_finRange i) a ha
  cases a with
  | light index op' words =>
    have hne : index ≠ UInt32.ofNat i := fun heq => hnot (by simp [assignsLight, heq])
    simp [valueFor?, field?, hne]
  | call | material => rfl

/-- A material that is not assigned has no field that is. -/
lemma filterMap_valueFor?_material (h : actions.any assignsMaterial = false) (op : UInt32) :
    actions.filterMap (valueFor? (.material op)) = [] := by
  rw [List.any_eq_false] at h
  refine List.filterMap_eq_nil_iff.2 fun a ha => ?_
  cases a with
  | material op' words => exact absurd rfl (h _ ha)
  | call | light => rfl

end Action

/-- What comes of a call that applies actions. The calls of actions come first, and set neither
lights nor the material. Then every light that was assigned is sent once, in ascending order, and
the material is sent once if it was assigned. What is sent are the copies that the effect keeps from
then on: fields of the copies it kept before, changed by the values assigned to them one after the
other. -/
structure EffectState.Pushes (change : List UInt32 → List UInt32 → List UInt32) (s : EffectState)
    (applied : List Action) (r : Response Unit) : Prop where
  calls : r.calls = applied.flatMap Action.calls ++
    (lightsAssigned applied).map (fun i => .light (UInt32.ofNat i) (r.state.effect.lights.get i)) ++
    if applied.any Action.assignsMaterial then [.material r.state.effect.material] else []
  others : ∀ c ∈ applied.flatMap Action.calls, (∀ index l, c ≠ .light index l) ∧
    ∀ m, c ≠ .material m
  lights : ∀ (i : Fin Light.count) op, (r.state.effect.lights.get i).field op =
    (applied.filterMap (Action.valueFor? (.light (UInt32.ofNat i) op))).foldl change
      ((s.effect.lights.get i).field op)
  material : ∀ op, r.state.effect.material.field op =
    (applied.filterMap (Action.valueFor? (.material op))).foldl change (s.effect.material.field op)
  /-- Copies that are not sent stay as they were. -/
  lightsKept : ∀ i, i ∉ lightsAssigned applied →
    r.state.effect.lights.get i = s.effect.lights.get i
  materialKept : applied.any Action.assignsMaterial = false →
    r.state.effect.material = s.effect.material
  /-- There are no lights beyond the last one. -/
  far : ∀ index l, .light index l ∈ r.calls → index.toNat < Light.count

namespace Work

variable (w : Work) (actions : List Action)

lemma lightsSet_restart_assignAll (i : Fin Light.count) :
    (w.restart.assignAll actions).lightsSet.get i =
      actions.any (·.assignsLight (UInt32.ofNat i)) := by
  have hset : (w.restart.assignAll actions).lightsSet.get i = true ↔ _ :=
    lightsSet_assignAll w.restart actions i.isLt
  rw [Bool.eq_iff_iff, hset, List.any_eq_true]
  simp only [restart, Vector.getElem_replicate, Bool.false_eq_true, false_or]
  refine exists_congr fun a => and_congr_right fun _ => ?_
  cases a with
  | call c => simp [Action.isCall, Action.assignsLight]
  | material op words => simp [Action.keys, Action.assignsLight]
  | light index op words =>
    by_cases hindex : index = UInt32.ofNat i.val
    · subst hindex
      simp only [Action.keys, Action.assignsLight, Action.isCall, Light.toNat_index, i.isLt,
        if_pos, List.mem_singleton, beq_self_eq_true, and_self]
    · simp [Action.keys, Action.assignsLight, Action.isCall, hindex, Ne.symm hindex]

lemma materialSet_restart_assignAll :
    (w.restart.assignAll actions).materialSet = actions.any Action.assignsMaterial := by
  have hset := materialSet_assignAll w.restart actions
  rw [Bool.eq_iff_iff, hset, List.any_eq_true]
  simp only [restart, Bool.false_eq_true, false_or]
  refine exists_congr fun a => and_congr_right fun _ => ?_
  cases a with
  | call c => simp [Action.isCall, Action.assignsMaterial]
  | material op words => simp [Action.keys, Action.isCall, Action.assignsMaterial]
  | light index op words => simp [Action.keys, Action.assignsMaterial]

lemma lightCalls_eq : w.lightCalls = (List.finRange Light.count).filterMap fun i =>
    if w.lightsSet.get i then some (.light (UInt32.ofNat i) (w.lights.get i)) else none := rfl

lemma flushCalls_restart_assignAll : (w.restart.assignAll actions).flushCalls =
    (lightsAssigned actions).map
      (fun i => .light (UInt32.ofNat i) ((w.restart.assignAll actions).lights.get i)) ++
    if actions.any Action.assignsMaterial then
      [.material (w.restart.assignAll actions).material] else [] := by
  rw [flushCalls, lightCalls_eq, materialCalls, materialSet_restart_assignAll, lightsAssigned]
  congr 1
  induction List.finRange Light.count with
  | nil => rfl
  | cons i rest ih =>
    rw [List.filterMap_cons, List.filter_cons, lightsSet_restart_assignAll]
    by_cases hassigned : actions.any (·.assignsLight (UInt32.ofNat i.val)) = true
    · rw [if_pos hassigned, if_pos hassigned, List.map_cons, ← ih]
    · rw [if_neg hassigned, if_neg hassigned, ← ih]

lemma field_lights_restart_assignAll (i : Fin Light.count) (op : UInt32) :
    ((w.restart.assignAll actions).lights.get i).field op =
      (actions.filterMap (Action.valueFor? (.light (UInt32.ofNat i) op))).foldl reassigned
        ((w.lights.get i).field op) := by
  have hwords := Fields.words_assignAll w.restart.fields actions (.light (UInt32.ofNat i) op)
  rwa [← fields_assignAll, Fields.words_light, Fields.words_light] at hwords

lemma field_material_restart_assignAll (op : UInt32) :
    (w.restart.assignAll actions).material.field op =
      (actions.filterMap (Action.valueFor? (.material op))).foldl reassigned
        (w.material.field op) := by
  have hwords := Fields.words_assignAll w.restart.fields actions (.material op)
  rwa [← fields_assignAll] at hwords

end Work

/-- Actions that are due make no calls that set lights or the material. -/
lemma LinkedEffect.Regular.not_isAssigned {e : LinkedEffect} {m : Memory} {mode : Mode}
    {plan : Plan} (hplan : e.Regular plan) {c : DeviceCall}
    (hc : c ∈ (e.due m mode plan).flatMap Action.calls) :
    ∀ key ∈ c.keys, key.isAssigned = false := by
  obtain ⟨a, ha, hca⟩ := List.mem_flatMap.1 hc
  obtain ⟨inputs, hevent, -⟩ := LinkedEffect.exists_of_mem_due ha
  have hdirect := (hplan _ hevent).2
  cases a with
  | call c' =>
    obtain rfl := List.mem_singleton.1 hca
    exact hdirect rfl
  | light | material => cases hca

namespace EffectState

variable {s : EffectState} {t p : Nat} {mode : Mode} {plan : Plan} {r : Response Unit}

/-- A pass that is applied with success sends lights and the material at its end. -/
lemma Applied.pushes (h : s.Applied t p mode plan r) (hplan : s.linked.Regular plan)
    (hok : r.answer = .ok ()) : s.Pushes reassigned (s.linked.due s.memory mode plan) r := by
  have hothers : ∀ c ∈ (s.linked.due s.memory mode plan).flatMap Action.calls,
      ∀ key ∈ c.keys, key.isAssigned = false := fun _ => hplan.not_isAssigned
  generalize hdue : s.linked.due s.memory mode plan = applied at hothers ⊢
  have hcopies : r.state.effect.lights = (s.work.restart.assignAll applied).lights ∧
      r.state.effect.material = (s.work.restart.assignAll applied).material := by
    rw [h.effect, hdue]
    exact ⟨rfl, rfl⟩
  have hcalls := h.calls
  rw [if_pos (h.answer.1 hok), hdue, Work.flushCalls_restart_assignAll, ← hcopies.1, ← hcopies.2,
    ← List.append_assoc] at hcalls
  have hlight := fun i op => hcopies.1 ▸ s.work.field_lights_restart_assignAll applied i op
  have hmaterial := fun op => hcopies.2 ▸ s.work.field_material_restart_assignAll applied op
  have hnotLight : ∀ index l, .light index l ∉ applied.flatMap Action.calls := fun index l hc =>
    nomatch hothers _ hc (.light index) (List.mem_singleton_self _)
  have hnotMaterial : ∀ m, .material m ∉ applied.flatMap Action.calls := fun m hc =>
    nomatch hothers _ hc .material (List.mem_singleton_self _)
  refine ⟨hcalls, fun c hc => ⟨fun index l hcall => hnotLight index l (hcall ▸ hc),
    fun m hcall => hnotMaterial m (hcall ▸ hc)⟩, hlight, hmaterial,
    fun i hi => Light.eq_of_field_eq fun op => ?_,
    fun hnone => Material.eq_of_field_eq fun op => ?_, fun index l hmem => ?_⟩
  · rw [hlight, Action.filterMap_valueFor?_light hi]
    rfl
  · rw [hmaterial, Action.filterMap_valueFor?_material hnone]
    rfl
  · rw [hcalls, List.mem_append, List.mem_append] at hmem
    rcases hmem with (hmem | hmem) | hmem
    · exact absurd hmem (hnotLight index l)
    · obtain ⟨i, -, hi⟩ := List.mem_map.1 hmem
      cases hi
      rw [Light.toNat_index]
      exact i.isLt
    · split at hmem
      · cases List.mem_singleton.1 hmem
      · cases hmem

end EffectState

namespace Host

variable {host : Host} {i : Nat} {s : EffectState}

/-- Lights and the material are accumulated while a pass is applied, in full or as far as something
changed, and sent once at its end. -/
theorem pushes_perform (hhost : host.Reachable) (hs : host.state? i = some s)
    (devices : Nat → Device) {op : Operation} (hop : op.appliesPass = true)
    (hok : (s.perform devices op).answer = .ok ()) :
    ∃ t p pass, s.passOf op = some (t, p) ∧ s.linked.pass? t p = some pass ∧
      s.Pushes reassigned
        (s.linked.due s.memory ⟨op.isFull, s.appliedAt t p⟩ (s.linked.passPlan s.memory pass))
        (s.perform devices op) := by
  have he := hhost.laidOut.proper hs
  have hc := hhost.laidOut.counter_lt hs
  rcases EffectState.passCall_perform he hc devices hop with ⟨e, hrefuse⟩ | ⟨t, p, pass, hcall⟩
  · rw [hrefuse] at hok
    cases hok
  · have hregular := LinkedEffect.regular_passPlan (m := s.memory) he.settled
      (EffectState.sound_of_pass? he hcall.lookup)
    exact ⟨t, p, pass, hcall.passOf, hcall.lookup, hcall.applied.pushes hregular hok⟩

/-- An effect whose passes set the range of a light, to a number and to a text. -/
def dousing : WrittenEffect where
  parameters := []
  techniques := [⟨some "t", [], [⟨some "a", [], [.float 138 0 ⟨0x40A00000⟩]⟩,
    ⟨some "b", [], [.object 138 0 4 1]⟩]⟩]
  objectCount := 2
  objectData := []
  resources := []

/-- The first pass is begun and ended. -/
def douse (im : Image) : List HostOperation :=
  [.create im [] none, .call 0 (.begin 0 { skipAll := true }), .call 0 (.beginPass 0 0),
    .call 0 .endPass]

/-- A text has no words, so the second pass sends a range of zero. -/
theorem pushes_perform_dousing :
    ∃ im, Image.decode (Image.encode dousing).toArray = .ok im ∧
      ∃ s, (run {} (douse im)).state? 0 = some s ∧ s.effect.lights[0].range = ⟨0x40A00000⟩ ∧
        (s.perform (fun _ => {}) (.beginPass 0 1)).answer = .ok () ∧
        (s.perform (fun _ => {}) (.beginPass 0 1)).calls = [.light 0 {}] ∧
        ∃ t p pass, s.passOf (.beginPass 0 1) = some (t, p) ∧ s.linked.pass? t p = some pass ∧
          s.Pushes reassigned
            (s.linked.due s.memory ⟨true, s.appliedAt t p⟩ (s.linked.passPlan s.memory pass))
            (s.perform (fun _ => {}) (.beginPass 0 1)) := by
  obtain ⟨im, hdecode, s, hs, hrange, hok, hcalls⟩ : ∃ im,
      (Image.decode (Image.encode dousing).toArray).toOption = some im ∧
        ∃ s, (run {} (douse im)).state? 0 = some s ∧ s.effect.lights[0].range = ⟨0x40A00000⟩ ∧
          (s.perform (fun _ => {}) (.beginPass 0 1)).answer.toOption = some () ∧
          (s.perform (fun _ => {}) (.beginPass 0 1)).calls = [.light 0 {}] := by
    decide +kernel
  have hanswer := Image.eq_ok_of_toOption_eq_some hok
  exact ⟨im, Image.eq_ok_of_toOption_eq_some hdecode, s, hs, hrange, hanswer, hcalls,
    pushes_perform ⟨_, rfl⟩ hs (fun _ => {}) rfl hanswer⟩

/-- A field of one component does not keep its value where a value has no words. -/
theorem not_pushes_overlay_dousing :
    ∃ im, Image.decode (Image.encode dousing).toArray = .ok im ∧
      ∃ s, (run {} (douse im)).state? 0 = some s ∧
        (s.perform (fun _ => {}) (.beginPass 0 1)).answer = .ok () ∧
        ∀ t p pass, s.passOf (.beginPass 0 1) = some (t, p) → s.linked.pass? t p = some pass →
          ¬s.Pushes (fun old new => overlay new old)
            (s.linked.due s.memory ⟨true, s.appliedAt t p⟩ (s.linked.passPlan s.memory pass))
            (s.perform (fun _ => {}) (.beginPass 0 1)) := by
  obtain ⟨im, hdecode, s, hs, hok, hafter, hassigned⟩ : ∃ im,
      (Image.decode (Image.encode dousing).toArray).toOption = some im ∧
        ∃ s, (run {} (douse im)).state? 0 = some s ∧
          (s.perform (fun _ => {}) (.beginPass 0 1)).answer.toOption = some () ∧
          (s.perform (fun _ => {}) (.beginPass 0 1)).state.effect.lights[0].field 6 = [0] ∧
          ∀ found ∈ s.passOf (.beginPass 0 1), ∀ pass ∈ s.linked.pass? found.1 found.2,
            ((s.linked.due s.memory ⟨true, s.appliedAt found.1 found.2⟩
              (s.linked.passPlan s.memory pass)).filterMap
                (Action.valueFor? (.light 0 6))).foldl (fun old new => overlay new old)
                  (s.effect.lights[0].field 6) = [0x40A00000] := by
    decide +kernel
  refine ⟨im, Image.eq_ok_of_toOption_eq_some hdecode, s, hs,
    Image.eq_ok_of_toOption_eq_some hok, fun t p pass hpassOf hlookup hpushes => ?_⟩
  have hfield := hpushes.lights ⟨0, by decide⟩ 6
  have hclaimed := hassigned (t, p) hpassOf pass hlookup
  exact absurd (hafter.symm.trans (hfield.trans hclaimed)) (by decide)

end Host

end ShaderEffect
