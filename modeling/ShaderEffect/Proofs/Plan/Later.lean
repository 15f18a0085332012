import ShaderEffect.Proofs.Plan.Pass

/-!
# Plans over time

A plan is the same in memories that are alike. If parameters were written in between, the plan may
be another one; but what is not due in the later plan was in the earlier plan too
(`LinkedEffect.lasting_passPlan`). This needs one condition: a state that sets a sampler is not
itself a reason to apply the states of the sampler, so the samplers that such states choose from
arrays must be the same ones as before.
-/

namespace ShaderEffect

namespace LinkedEffect

variable {e : LinkedEffect} {m m' : Memory} {nested nested' : SamplerPlan}

/-! ### Memories that are alike -/

/-- The value of a state depends on the words of what it reads, and on how many words its own
parameter has. -/
lemma stateValue_eq_of_words {s : StateEntry}
    (hreads : ∀ h ∈ e.reads s, e.words m' h = e.words m h)
    (hlen : (e.words m' s.param).length = (e.words m s.param).length) :
    e.stateValue m' s = e.stateValue m s := by
  rw [reads] at hreads
  rw [stateValue, stateValue]
  cases hsource : s.source with
  | constant =>
    simp only [hsource] at hreads
    simp only [hreads _ List.mem_cons_self]
  | parameter h =>
    simp only [hsource] at hreads
    simp only [hreads _ List.mem_cons_self]
  | expression p =>
    simp only [hsource] at hreads
    simp only [run_congr hreads, resultWords_words_congr hlen]
  | selector array p =>
    simp only [hsource] at hreads
    have hp : ∀ h ∈ p.handles, e.words m' h = e.words m h := fun h hmem =>
      hreads h (List.mem_append_left _ (List.mem_cons_of_mem _ hmem))
    simp only [runFirst_congr hp]
    cases hselect : e.tree.select array (e.runFirst m p) with
    | error error => rfl
    | ok h =>
      have hh := hreads h (List.mem_append_right _ (mem_members_of_select hselect))
      simp only [Except.map, hh]

lemma stateValue_congr (hm : e.Alike m m') {s : StateEntry} (hs : e.Sound s) :
    e.stateValue m' s = e.stateValue m s :=
  stateValue_eq_of_words (fun h hh => hm.words (hs.stable h hh)) (hm.length_words s.param)

lemma constantPlan_congr (hsettled : e.Settled) (hm : e.Alike m m') (stage : Stage)
    (c : Constant) : e.constantPlan m' nested stage c = e.constantPlan m nested stage c := by
  rw [constantPlan, constantPlan]
  cases hfind : e.tree.find? none c.name with
  | none => rfl
  | some h => simp only [upload_congr (hm.words (hsettled.find _ _ hfind))]

lemma stable_of_mem_handles_boundProgram (hsettled : e.Settled) {p : Program} {h : Handle}
    (hmem : h ∈ (e.boundProgram p).handles) : e.Stable h := by
  obtain ⟨c, hc⟩ := BoundProgram.mem_handles.1 hmem
  obtain ⟨c', -, hc'⟩ := List.mem_map.1 hc
  exact hsettled.find _ _ (congrArg Prod.snd hc')

lemma shaderPlan_congr (hsettled : e.Settled) (hm : e.Alike m m') (stage : Stage) (h : Handle) :
    e.shaderPlan m' nested stage h = e.shaderPlan m nested stage h := by
  rw [shaderPlan, shaderPlan, hm.shader?]
  cases e.shader? m h with
  | none => rfl
  | some s =>
    have hrun : ∀ p, e.run m' (e.boundProgram p) = e.run m (e.boundProgram p) := fun p =>
      hm.run fun _ hmem => stable_of_mem_handles_boundProgram hsettled hmem
    have hconstants : e.constantPlan m' nested s.value.stage =
        e.constantPlan m nested s.value.stage :=
      funext fun c => constantPlan_congr hsettled hm s.value.stage c
    simp only [constantsPlan, hconstants, programPlan, hrun]

lemma statePlan_congr (hsettled : e.Settled) (hm : e.Alike m m') (sampler : Option UInt32)
    {s : StateEntry} (hs : e.Sound s) :
    e.statePlan m' nested sampler s = e.statePlan m nested sampler s := by
  rw [statePlan, statePlan, stateValue_congr hm hs]
  simp only [valuePlan, shaderPlan_congr hsettled hm, plainActions, hm.texture?]

lemma samplerPlan_congr (hsettled : e.Settled) (hm : e.Alike m m') (depth : Nat) :
    e.samplerPlan m' depth = e.samplerPlan m depth := by
  induction depth with
  | zero => rfl
  | succ depth ih =>
    funext index h
    rw [samplerPlan, samplerPlan, ih]
    cases hp : e.tree.node? h with
    | none => rfl
    | some p => exact List.flatMap_congr fun s hs =>
        statePlan_congr hsettled hm _ (hsettled.nodes h p hp s hs)

/-- The plan of a pass is the same in memories that are alike. -/
theorem passPlan_congr (hsettled : e.Settled) (hm : e.Alike m m') {p : Pass}
    (hp : ∀ s ∈ p.states, e.Sound s) : e.passPlan m' p = e.passPlan m p :=
  List.flatMap_congr fun s hs => by
    rw [passStatePlan, passStatePlan, samplerPlan_congr hsettled hm,
      statePlan_congr hsettled hm none (hp s hs)]

/-! ### Memories after writes -/

/-- From one memory to a later one, what changed of what states read was stamped after an update. -/
structure Continues (e : LinkedEffect) (since : Nat) (m m' : Memory) : Prop where
  /-- A parameter that is not dirty did not change. -/
  clean : ∀ h, e.Stable h → e.isDirty m' h since = false →
    ∀ id, e.blockOf? h = some id → m'.block id = m.block id
  /-- The own value of a state did not change. -/
  own : ∀ place s, e.stateAt? place = some s → s.source = .constant →
    ∀ id, e.blockOf? s.param = some id → m'.block id = m.block id
  /-- What expressions store has kept its shape. -/
  computed : ∀ id, e.Computed id → (m'.block id).objects = (m.block id).objects ∧
    (m'.block id).words.size = (m.block id).words.size

/-- The elements of an array are in its block. -/
def MembersShare (e : LinkedEffect) : Prop :=
  ∀ h p, e.tree.node? h = some p → ∀ h' ∈ p.members, e.blockOf? h' = e.blockOf? h

lemma MembersShare.blockOf?_of_select (hmembers : e.MembersShare) {array h : Handle} {x : Single}
    (hselect : e.tree.select array x = .ok h) : e.blockOf? h = e.blockOf? array := by
  have hmember := mem_members_of_select hselect
  cases hp : e.tree.node? array with
  | none => simp [hp] at hmember
  | some p =>
    rw [hp] at hmember
    exact hmembers array p hp h hmember

/-- What of a later plan is not due is in the earlier plan. -/
def Lasting (e : LinkedEffect) (since : Nat) (m' : Memory) (plan plan' : Plan) : Prop :=
  ∀ inputs action, .act inputs action ∈ plan' → e.anyDirty m' inputs since = false →
    .act inputs action ∈ plan

variable {since : Nat}

namespace Lasting

lemma refl (plan : Plan) : e.Lasting since m' plan plan := fun _ _ h _ => h

lemma nil (plan : Plan) : e.Lasting since m' plan [] := fun _ _ h _ => by cases h

lemma append {plan plan' rest rest' : Plan} (hplan : e.Lasting since m' plan plan')
    (hrest : e.Lasting since m' rest rest') :
    e.Lasting since m' (plan ++ rest) (plan' ++ rest') := by
  intro inputs action hmem hclean
  rcases List.mem_append.1 hmem with hmem | hmem
  · exact List.mem_append_left _ (hplan inputs action hmem hclean)
  · exact List.mem_append_right _ (hrest inputs action hmem hclean)

lemma flatMap {α : Type} {list : List α} {plan plan' : α → Plan}
    (h : ∀ a ∈ list, e.Lasting since m' (plan a) (plan' a)) :
    e.Lasting since m' (list.flatMap plan) (list.flatMap plan') := by
  intro inputs action hmem hclean
  obtain ⟨a, ha, hmem⟩ := List.mem_flatMap.1 hmem
  exact List.mem_flatMap.2 ⟨a, ha, h a ha inputs action hmem hclean⟩

/-- What is due with some parameters lasts if it does so while these are not dirty. -/
lemma under {inputs : List Handle} {plan plan' : Plan}
    (h : e.anyDirty m' inputs since = false → e.Lasting since m' plan plan') :
    e.Lasting since m' (plan.map (.under inputs)) (plan'.map (.under inputs)) := by
  intro all action hmem hclean
  obtain ⟨event, hevent, heq⟩ := List.mem_map.1 hmem
  cases event with
  | fail error => cases heq
  | act more action' =>
    cases heq
    rw [anyDirty_append, Bool.or_eq_false_iff] at hclean
    exact List.mem_map.2 ⟨.act more action, h hclean.1 more action hevent hclean.2, rfl⟩

lemma ofActions {inputs : List Handle} {actions actions' : List Action}
    (h : e.anyDirty m' inputs since = false → actions' = actions) :
    e.Lasting since m' (.ofActions inputs actions) (.ofActions inputs actions') := by
  intro all action hmem hclean
  obtain ⟨a, ha, heq⟩ := List.mem_map.1 hmem
  cases heq
  exact List.mem_map.2 ⟨action, h hclean ▸ ha, rfl⟩

end Lasting

lemma isDirty_of_anyDirty {hs : List Handle} (hclean : e.anyDirty m' hs since = false) {h : Handle}
    (hmem : h ∈ hs) : e.isDirty m' h since = false := by
  rw [anyDirty, List.any_eq_false] at hclean
  exact Bool.eq_false_iff.2 (hclean h hmem)

namespace Continues

lemma refl (since : Nat) (m : Memory) : e.Continues since m m :=
  ⟨fun _ _ _ _ _ => rfl, fun _ _ _ _ _ _ => rfl, fun _ _ => ⟨rfl, rfl⟩⟩

variable (hm : e.Continues since m m')
include hm

lemma words {h : Handle} (hh : e.Stable h) (hclean : e.isDirty m' h since = false) :
    e.words m' h = e.words m h :=
  words_congr (hm.clean h hh hclean)

lemma objects {h : Handle} (hh : e.Stable h) (hclean : e.isDirty m' h since = false) :
    e.objects m' h = e.objects m h :=
  objects_congr fun id hid => by rw [hm.clean h hh hclean id hid]

lemma run {p : BoundProgram} (hp : ∀ h ∈ p.handles, e.Stable h)
    (hclean : e.anyDirty m' p.handles since = false) : e.run m' p = e.run m p :=
  run_congr fun h hmem => hm.words (hp h hmem) (isDirty_of_anyDirty hclean hmem)

/-- A state none of whose inputs changed has the same value, and the same objects in it. -/
lemma stateValue (hmembers : e.MembersShare) {place : Link.StatePlace} {s : StateEntry}
    (hplace : e.stateAt? place = some s) (hs : e.Sound s) {v : StateValue}
    (hv : e.stateValue m' s = .ok v) (hclean : e.anyDirty m' v.inputs since = false) :
    e.stateValue m s = .ok v ∧ e.objects m' v.param = e.objects m v.param := by
  have hstable := hs.stable
  rw [reads] at hstable
  rw [LinkedEffect.stateValue] at hv ⊢
  cases hsource : s.source with
  | constant =>
    simp only [hsource, Except.ok.injEq] at hv ⊢
    subst hv
    have hown := hm.own place s hplace hsource
    exact ⟨by rw [words_congr hown], objects_congr fun id hid => by rw [hown id hid]⟩
  | parameter h =>
    simp only [hsource, Except.ok.injEq] at hv hstable ⊢
    subst hv
    have hh := hstable h List.mem_cons_self
    have hclean := isDirty_of_anyDirty hclean List.mem_cons_self
    exact ⟨by rw [hm.words hh hclean], hm.objects hh hclean⟩
  | expression p =>
    simp only [hsource, Except.ok.injEq] at hv hstable ⊢
    subst hv
    have hshape := fun id hid => hm.computed id (hs.computed p hsource id hid)
    refine ⟨?_, objects_congr fun id hid => (hshape id hid).1⟩
    rw [hm.run hstable hclean,
      resultWords_words_congr (length_words_congr fun id hid => (hshape id hid).2)]
  | selector array p =>
    simp only [hsource] at hv hstable ⊢
    cases hselect : e.tree.select array (e.runFirst m' p) with
    | error error =>
      rw [hselect] at hv
      cases hv
    | ok h =>
      rw [hselect] at hv
      cases hv
      simp only [anyDirty_append, Bool.or_eq_false_iff] at hclean
      have hp : ∀ h ∈ p.handles, e.Stable h := fun h hmem =>
        hstable h (List.mem_append_left _ (List.mem_cons_of_mem _ hmem))
      have harray : e.Stable array := hstable array (List.mem_append_left _ List.mem_cons_self)
      have hfirst : e.runFirst m' p = e.runFirst m p := by
        rw [runFirst, runFirst, hm.run hp hclean.1]
      -- The element is in the block of the array, which did not change.
      have hblock : ∀ id, e.blockOf? h = some id → m'.block id = m.block id := by
        intro id hid
        rw [hmembers.blockOf?_of_select hselect] at hid
        exact hm.clean array harray (isDirty_of_anyDirty hclean.2 List.mem_cons_self) id hid
      refine ⟨?_, objects_congr fun id hid => by rw [hblock id hid]⟩
      rw [← hfirst, hselect]
      simp only [Except.map, words_congr hblock]

end Continues

/-! ### What lasts -/

/-- The parameter that holds the value of a state. -/
def chosen (e : LinkedEffect) (m : Memory) (s : StateEntry) : Except EvaluationError Handle :=
  (e.stateValue m s).map (·.param)

/-- The states of a pass and of samplers that set samplers set the same ones. Only those that choose
from an array can do otherwise. -/
def SameChoices (e : LinkedEffect) (pass : Pass) (m m' : Memory) : Prop :=
  ∀ s info, (s ∈ pass.states ∨ ∃ h p, e.tree.node? h = some p ∧ s ∈ p.states) →
    StateTable.info? s.operation = some info → info.cls = .sampler → e.chosen m' s = e.chosen m s

/-- States that do not choose from an array set the same samplers in all memories. -/
lemma sameChoices_of_not_selected {pass : Pass} (hpass : ∀ s ∈ pass.states, s.isSelected = false)
    (hnodes : ∀ p ∈ e.tree.nodes, ∀ s ∈ p.states, s.isSelected = false) :
    e.SameChoices pass m m' := by
  intro s info hs _ _
  have hselected : s.isSelected = false := by
    rcases hs with hs | ⟨h, p, hp, hs⟩
    · exact hpass s hs
    · exact hnodes p (Array.mem_of_getElem? hp) s hs
  rw [chosen, chosen, stateValue, stateValue]
  cases hsource : s.source with
  | selector array p => simp [StateEntry.isSelected, hsource] at hselected
  | _ => rfl

/-- What samplers have not due lasts. -/
def NestedLasting (e : LinkedEffect) (since : Nat) (m' : Memory) (nested nested' : SamplerPlan) :
    Prop :=
  ∀ index h, e.Lasting since m' (nested index h) (nested' index h)

lemma lasting_constantPlan (hsettled : e.Settled) (hm : e.Continues since m m')
    (hnested : e.NestedLasting since m' nested nested') (stage : Stage) (c : Constant) :
    e.Lasting since m' (e.constantPlan m nested stage c) (e.constantPlan m' nested' stage c) := by
  rw [constantPlan, constantPlan]
  split
  · exact .nil _
  · cases hfind : e.tree.find? none c.name with
    | none => exact .nil _
    | some h =>
      by_cases hset : c.set = .sampler
      · simp only [if_pos hset]
        refine .under fun _ => ?_
        rw [samplersPlan, samplersPlan]
        split
        · exact .nil _
        · split
          · exact .flatMap fun _ _ => hnested _ _
          · exact .nil _
      · simp only [if_neg hset]
        refine .ofActions fun hclean => ?_
        have hh := hsettled.find _ _ hfind
        rw [upload_congr (hm.words hh (isDirty_of_anyDirty hclean List.mem_cons_self))]

lemma lasting_shaderPlan (hsettled : e.Settled) (hm : e.Continues since m m')
    (hnested : e.NestedLasting since m' nested nested') (stage : Stage) {h : Handle}
    (hshader : e.shader? m' h = e.shader? m h) :
    e.Lasting since m' (e.shaderPlan m nested stage h) (e.shaderPlan m' nested' stage h) := by
  rw [shaderPlan, shaderPlan, hshader]
  refine Lasting.append (.refl [_]) ?_
  cases e.shader? m h with
  | none => exact .nil _
  | some s =>
    refine .append (.flatMap fun c _ => lasting_constantPlan hsettled hm hnested _ c) ?_
    cases s.value.program with
    | none => exact .nil _
    | some p =>
      refine .ofActions fun hclean => ?_
      rw [hm.run (fun _ hmem => stable_of_mem_handles_boundProgram hsettled hmem) hclean]

/-- What a state does is due when its value changed, unless it sets a sampler. -/
lemma exists_inputs_of_mem_valuePlan {sampler : Option UInt32} {info : StateInfo} {index : UInt32}
    {v : StateValue} (hcls : info.cls ≠ .sampler) {inputs : List Handle} {action : Action}
    (hmem : .act inputs action ∈ e.valuePlan m nested sampler info index v) :
    ∃ more, inputs = v.inputs ++ more := by
  have hunder : ∀ {plan : Plan}, Event.act inputs action ∈ plan.map (Event.under v.inputs) →
      ∃ more, inputs = v.inputs ++ more := by
    intro plan hmem
    obtain ⟨event, -, heq⟩ := List.mem_map.1 hmem
    cases event with
    | fail error => cases heq
    | act more _ =>
      cases heq
      exact ⟨more, rfl⟩
  rw [valuePlan] at hmem
  split at hmem
  · exact hunder hmem
  · exact hunder hmem
  · contradiction
  · obtain ⟨_, -, heq⟩ := List.mem_map.1 hmem
    cases heq
    exact ⟨[], (List.append_nil _).symm⟩

lemma lasting_valuePlan (hsettled : e.Settled) (hm : e.Continues since m m')
    (hnested : e.NestedLasting since m' nested nested') (sampler : Option UInt32)
    (info : StateInfo) (index : UInt32) {v : StateValue}
    (hobjects : e.objects m' v.param = e.objects m v.param) :
    e.Lasting since m' (e.valuePlan m nested sampler info index v)
      (e.valuePlan m' nested' sampler info index v) := by
  have hobject : e.object? m' v.param = e.object? m v.param := by
    rw [object?, object?, hobjects]
  have hshader : e.shader? m' v.param = e.shader? m v.param := by
    rw [shader?, shader?, hobject]
  rw [valuePlan, valuePlan]
  split
  · exact .under fun _ => lasting_shaderPlan hsettled hm hnested _ hshader
  · exact .under fun _ => lasting_shaderPlan hsettled hm hnested _ hshader
  · exact hnested _ _
  · refine .ofActions fun _ => ?_
    simp only [plainActions, texture?, hobject]

lemma lasting_statePlan (hsettled : e.Settled) (hm : e.Continues since m m')
    (hmembers : e.MembersShare) (hnested : e.NestedLasting since m' nested nested')
    (sampler : Option UInt32) {place : Link.StatePlace} {s : StateEntry}
    (hplace : e.stateAt? place = some s) (hs : e.Sound s)
    (hchoice : ∀ info, StateTable.info? s.operation = some info → info.cls = .sampler →
      e.chosen m' s = e.chosen m s) :
    e.Lasting since m' (e.statePlan m nested sampler s) (e.statePlan m' nested' sampler s) := by
  rw [statePlan, statePlan]
  cases hinfo : StateTable.info? s.operation with
  | none => exact .nil _
  | some info =>
    cases hv' : e.stateValue m' s with
    | error error =>
      intro inputs action hmem
      simp at hmem
    | ok v =>
      intro inputs action hmem hclean
      by_cases hcls : info.cls = .sampler
      · -- The state sets the sampler it set before.
        have hchosen := hchoice info hinfo hcls
        rw [chosen, chosen, hv'] at hchosen
        cases hv : e.stateValue m s with
        | error error =>
          rw [hv] at hchosen
          cases hchosen
        | ok v₀ =>
          rw [hv] at hchosen
          have hparam : v.param = v₀.param := Except.ok.inj hchosen
          simp only [valuePlan, hcls, hparam] at hmem ⊢
          exact hnested _ _ inputs action hmem hclean
      · -- Nothing that decides the value changed, so the state had the same value before.
        obtain ⟨more, rfl⟩ := exists_inputs_of_mem_valuePlan hcls hmem
        have hinputs := hclean
        rw [anyDirty_append, Bool.or_eq_false_iff] at hinputs
        obtain ⟨hv, hobjects⟩ := hm.stateValue hmembers hplace hs hv' hinputs.1
        rw [hv]
        exact lasting_valuePlan hsettled hm hnested sampler info s.index hobjects _ _ hmem hclean

lemma nestedLasting_samplerPlan (hsettled : e.Settled) (hm : e.Continues since m m')
    (hmembers : e.MembersShare) {pass : Pass} (hchoices : e.SameChoices pass m m') (depth : Nat) :
    e.NestedLasting since m' (e.samplerPlan m depth) (e.samplerPlan m' depth) := by
  induction depth with
  | zero => exact fun _ _ => .nil _
  | succ depth ih =>
    intro index h
    rw [samplerPlan, samplerPlan]
    cases hp : e.tree.node? h with
    | none => exact .nil _
    | some p =>
      refine .flatMap fun s hs => ?_
      obtain ⟨i, hi⟩ := List.mem_iff_getElem?.1 hs
      have hplace : e.stateAt? (.sampler h i) = some s := by
        simp [stateAt?, Link.stateAt, hp, hi]
      exact lasting_statePlan hsettled hm hmembers ih _ hplace (hsettled.nodes h p hp s hs)
        fun info => hchoices s info (.inr ⟨h, p, hp, hs⟩)

/-- What is not due in a later plan of a pass was in the plan before. -/
theorem lasting_passPlan (hsettled : e.Settled) (hm : e.Continues since m m')
    (hmembers : e.MembersShare) {p : Pass} (hchoices : e.SameChoices p m m')
    (hp : ∀ s ∈ p.states, e.Sound s)
    (hplaces : ∀ s ∈ p.states, ∃ place, e.stateAt? place = some s) :
    e.Lasting since m' (e.passPlan m p) (e.passPlan m' p) := by
  refine .flatMap fun s hs => ?_
  obtain ⟨place, hplace⟩ := hplaces s hs
  exact lasting_statePlan hsettled hm hmembers
    (nestedLasting_samplerPlan hsettled hm hmembers hchoices _) none hplace (hp s hs)
    fun info => hchoices s info (.inl hs)

end LinkedEffect

end ShaderEffect
