import ShaderEffect.Effect.Describe
import ShaderEffect.Proofs.Pass.Commit
import ShaderEffect.Proofs.Pass.Restore
import ShaderEffect.Shader.Encode

/-!
# Descriptions tell what passes bind

A pass is described without being applied: of the states that set the shader of a stage, the last
one is evaluated as values are now. When the pass is begun all of its states are applied in turn,
and all that their shaders bring with them. If that succeeds, the device has the shaders that were
told, and the shader of a stage that no state of the pass sets is the one it had before
(`Host.describePass_beginPass`).

Only states set shaders. But samplers have states as well, and descriptions do not look into
samplers; so this is about effects whose samplers set no shaders.
-/

namespace ShaderEffect

/-- The family of the states that set the shader of a stage. -/
def Stage.stateClass : Stage → StateClass
  | .vertex => .vertexShader
  | .pixel => .pixelShader

/-- Whether a state sets the shader of a stage. -/
def StateEntry.setsShader (s : StateEntry) (stage : Stage) : Bool :=
  LinkedEffect.isOfClass stage.stateClass s

/-- The shader that is told for a stage. -/
def PassDescription.shader (d : PassDescription) : Stage → Option (Shared Shader)
  | .vertex => d.vertexShader
  | .pixel => d.pixelShader

/-- Some state of a pass sets the shader of a stage. -/
def Pass.SetsShader (p : Pass) (stage : Stage) : Prop :=
  ∃ s ∈ p.states, s.setsShader stage = true

instance (p : Pass) (stage : Stage) : Decidable (p.SetsShader stage) :=
  inferInstanceAs (Decidable (∃ s ∈ p.states, s.setsShader stage = true))

lemma StateEntry.setsShader_iff {s : StateEntry} {stage : Stage} :
    s.setsShader stage = true ↔
      ∃ info, StateTable.info? s.operation = some info ∧ info.cls = stage.stateClass := by
  rw [setsShader, LinkedEffect.isOfClass]
  cases StateTable.info? s.operation <;> simp

/-- The last element with a property, and those after it without. -/
lemma exists_append_of_getLast?_filter {α : Type} {p : α → Bool} {l : List α} {a : α}
    (h : (l.filter p).getLast? = some a) :
    ∃ before after, l = before ++ a :: after ∧ p a = true ∧ ∀ b ∈ after, ¬p b = true := by
  obtain ⟨others, hfilter⟩ := List.getLast?_eq_some_iff.1 h
  obtain ⟨before, rest, rfl, -, hrest⟩ := List.filter_eq_append_iff.1 hfilter
  obtain ⟨skipped, after, rfl, -, ha, hafter⟩ := List.filter_eq_cons_iff.1 hrest
  exact ⟨before ++ skipped, after, by rw [List.append_assoc], ha, List.filter_eq_nil_iff.1 hafter⟩

namespace Plan

lemma answer_of_append_eq_ok {plan rest : Plan} (h : (plan ++ rest).answer = .ok ()) :
    plan.answer = .ok () ∧ rest.answer = .ok () := by
  rw [answer_append] at h
  obtain ⟨⟨⟩, hplan, hrest⟩ := exists_of_bind_eq_ok h
  exact ⟨hplan, hrest⟩

end Plan

namespace LinkedEffect

variable {e : LinkedEffect} {m : Memory} {nested : SamplerPlan} {stage : Stage}

/-! ### What sets no shader -/

/-- No state of a sampler sets a shader. -/
def NoSamplerShaders (e : LinkedEffect) : Prop :=
  ∀ p ∈ e.tree.nodes, ∀ s ∈ p.states, ¬s.setsShader .vertex = true ∧ ¬s.setsShader .pixel = true

instance : Decidable e.NoSamplerShaders :=
  inferInstanceAs (Decidable (∀ p ∈ e.tree.nodes, ∀ s ∈ p.states,
    ¬s.setsShader .vertex = true ∧ ¬s.setsShader .pixel = true))

lemma NoSamplerShaders.not_setsShader (h : e.NoSamplerShaders) {i : Handle} {s : StateEntry}
    (hs : s ∈ e.statesAt i) (stage : Stage) : ¬s.setsShader stage = true := by
  obtain ⟨p, hp, hmem⟩ := mem_statesAt.1 hs
  obtain ⟨hvertex, hpixel⟩ := h p (Array.mem_of_getElem? hp) s hmem
  cases stage with
  | vertex => exact hvertex
  | pixel => exact hpixel

/-- Constants are no shaders. -/
lemma SetConstants.shader_notMem {calls : List DeviceCall} (h : SetConstants calls)
    (inputs : List Handle) :
    .shader stage ∉ (Plan.ofActions inputs (calls.map .call)).keys := by
  intro hmem
  rw [Plan.keys_ofActions] at hmem
  obtain ⟨_, ha, hkey⟩ := List.mem_flatMap.1 hmem
  obtain ⟨c, hc, rfl⟩ := List.mem_map.1 ha
  cases h c hc _ hkey

/-- Samplers that set no shader of a stage. -/
def SparesShader (stage : Stage) (nested : SamplerPlan) : Prop :=
  ∀ index h, .shader stage ∉ (nested index h).keys

lemma shader_notMem_constantPlan (hnested : SparesShader stage nested) (stage' : Stage)
    (c : Constant) : .shader stage ∉ (e.constantPlan m nested stage' c).keys := by
  rw [constantPlan]
  split
  · exact List.not_mem_nil
  · split
    · exact List.not_mem_nil
    · split
      · rw [Plan.keys_map_under, samplersPlan_eq, Plan.keys_flatMap]
        intro hmem
        obtain ⟨entry, -, hmem⟩ := List.mem_flatMap.1 hmem
        exact hnested _ _ hmem
      · exact (setConstants_upload stage' c _).shader_notMem _

/-- What a shader brings sets no shader. -/
lemma shader_notMem_constantsPlan (hnested : SparesShader stage nested) (s : Shader) :
    .shader stage ∉ (e.constantsPlan m nested s).keys := by
  rw [constantsPlan, Plan.keys_append, Plan.keys_flatMap]
  intro hmem
  rcases List.mem_append.1 hmem with hmem | hmem
  · obtain ⟨c, -, hmem⟩ := List.mem_flatMap.1 hmem
    exact shader_notMem_constantPlan hnested _ _ hmem
  · split at hmem
    · exact (setConstants_resultCalls _ _ _).shader_notMem _ hmem
    · cases hmem

/-- To set a shader is to make one call, and then to bring what the shader needs. -/
lemma exists_actions_shaderPlan (hnested : SparesShader stage nested) (stage' : Stage)
    (h : Handle) : ∃ rest, (e.shaderPlan m nested stage' h).actions =
      .call (.shader stage' (e.shader? m h)) :: rest ∧ ∀ a ∈ rest, .shader stage ∉ a.keys := by
  rw [shaderPlan]
  refine ⟨_, rfl, fun a ha hkey => ?_⟩
  have hmem := Plan.mem_keys.2 ⟨a, ha, hkey⟩
  split at hmem
  · exact shader_notMem_constantsPlan hnested _ hmem
  · cases hmem

lemma shader_notMem_plainActions (sampler : Option UInt32) (info : StateInfo) (index : UInt32)
    (v : StateValue) :
    .shader stage ∉ (Plan.ofActions v.inputs (e.plainActions m sampler info index v)).keys := by
  obtain ⟨cls, op, name⟩ := info
  cases cls with
  | shaderConstant => exact (setConstants_constantCalls op index v.words).shader_notMem _
  | light =>
    simp only [plainActions, Plan.keys_ofActions, List.flatMap_cons, List.flatMap_nil, Action.keys]
    split <;> simp
  | _ => simp [plainActions, Action.keys, DeviceCall.keys]

/-- A state of another family sets no shader of a stage. -/
lemma shader_notMem_statePlan (hnested : SparesShader stage nested) (sampler : Option UInt32)
    {s : StateEntry} (hs : ¬s.setsShader stage = true) :
    .shader stage ∉ (e.statePlan m nested sampler s).keys := by
  rw [StateEntry.setsShader_iff] at hs
  have hother : ∀ (stage' : Stage) (v : StateValue), stage' ≠ stage →
      .shader stage ∉ Plan.keys ((e.shaderPlan m nested stage' v.param).map (.under v.inputs)) := by
    intro stage' v hne hmem
    obtain ⟨rest, hactions, hrest⟩ := e.exists_actions_shaderPlan hnested stage' v.param
    rw [Plan.keys_map_under] at hmem
    obtain ⟨a, ha, hkey⟩ := Plan.mem_keys.1 hmem
    rw [hactions] at ha
    rcases List.mem_cons.1 ha with rfl | ha
    · exact hne (StateKey.shader.inj (List.mem_singleton.1 hkey)).symm
    · exact hrest a ha hkey
  rw [statePlan]
  split
  · exact List.not_mem_nil
  · rename_i info hinfo
    split
    · exact List.not_mem_nil
    · rename_i v hv
      rw [valuePlan]
      split
      · rename_i hcls
        exact hother .vertex v fun heq => hs ⟨info, hinfo, heq ▸ hcls⟩
      · rename_i hcls
        exact hother .pixel v fun heq => hs ⟨info, hinfo, heq ▸ hcls⟩
      · exact hnested _ _
      · exact shader_notMem_plainActions sampler info s.index v

lemma sparesShader_samplerPlan (h : e.NoSamplerShaders) (depth : Nat) :
    SparesShader stage (e.samplerPlan m depth) := by
  induction depth with
  | zero => exact fun _ _ => List.not_mem_nil
  | succ depth ih =>
    intro index i hmem
    rw [samplerPlan_succ, Plan.keys_flatMap] at hmem
    obtain ⟨s, hs, hmem⟩ := List.mem_flatMap.1 hmem
    exact shader_notMem_statePlan ih _ (h.not_setsShader hs stage) hmem

/-! ### What sets a shader -/

/-- The parameter that a description looks at is the one that holds the value of the state. -/
lemma shaderSource?_eq {s : StateEntry} {v : StateValue} (hv : e.stateValue m s = .ok v) :
    e.shaderSource? m s = some v.param := by
  rw [shaderSource?]
  cases takes_of_stateValue hv with
  | constant hsource | parameter hsource | expression hsource => rw [hsource]
  | selector hsource hselect =>
    rw [hsource]
    simp only [hselect]
    rfl

/-- A state that sets the shader of a stage sets the one that is told. -/
lemma exists_actions_statePlan (hnested : SparesShader stage nested) {s : StateEntry}
    (hs : s.setsShader stage = true) (hanswer : (e.statePlan m nested none s).answer = .ok ()) :
    ∃ rest, (e.statePlan m nested none s).actions =
      .call (.shader stage ((e.shaderSource? m s).bind (e.shader? m))) :: rest ∧
      ∀ a ∈ rest, .shader stage ∉ a.keys := by
  obtain ⟨info, hinfo, hcls⟩ := StateEntry.setsShader_iff.1 hs
  rw [statePlan, hinfo] at hanswer ⊢
  cases hv : e.stateValue m s with
  | error error =>
    rw [hv] at hanswer
    cases hanswer
  | ok v =>
    have hplan : e.valuePlan m nested none info s.index v =
        (e.shaderPlan m nested stage v.param).map (.under v.inputs) := by
      cases stage <;> simp only [valuePlan, hcls, Stage.stateClass]
    simp only [hplan, Plan.actions_map_under, shaderSource?_eq hv, Option.bind_some]
    exact exists_actions_shaderPlan hnested stage v.param

/-! ### Passes -/

/-- What the plan of a pass does to the shader of a stage: nothing, or the last state that sets it
sets the one that is told. -/
inductive Binds (e : LinkedEffect) (m : Memory) (pass : Pass) (stage : Stage) : Prop
  | spared : ¬pass.SetsShader stage → .shader stage ∉ (e.passPlan m pass).keys →
      e.lastShader? m stage.stateClass pass.states = none → Binds e m pass stage
  | set (before after : List Action) : pass.SetsShader stage → (e.passPlan m pass).actions =
        before ++ .call (.shader stage (e.lastShader? m stage.stateClass pass.states)) :: after →
      (∀ a ∈ after, .shader stage ∉ a.keys) → Binds e m pass stage

lemma binds_passPlan (hsamplers : e.NoSamplerShaders) {pass : Pass}
    (hanswer : (e.passPlan m pass).answer = .ok ()) (stage : Stage) : e.Binds m pass stage := by
  have hnested : SparesShader stage (e.samplerPlan m e.samplerDepth) :=
    sparesShader_samplerPlan hsamplers _
  have hspared : ∀ states : List StateEntry, (∀ s ∈ states, ¬s.setsShader stage = true) →
      .shader stage ∉ Plan.keys (states.flatMap (e.passStatePlan m)) := by
    intro states hstates hmem
    rw [Plan.keys_flatMap] at hmem
    obtain ⟨s, hs, hmem⟩ := List.mem_flatMap.1 hmem
    exact shader_notMem_statePlan hnested none (hstates s hs) hmem
  cases hlast : (pass.states.filter (isOfClass stage.stateClass)).getLast? with
  | none =>
    have hnone := List.filter_eq_nil_iff.1 (List.getLast?_eq_none_iff.1 hlast)
    exact .spared (fun ⟨s, hs, hset⟩ => hnone s hs hset) (hspared _ hnone)
      (by rw [lastShader?, hlast]; rfl)
  | some s =>
    obtain ⟨before, after, hstates, hs, hafter⟩ := exists_append_of_getLast?_filter hlast
    have htold : e.lastShader? m stage.stateClass pass.states =
        (e.shaderSource? m s).bind (e.shader? m) := by
      rw [lastShader?, hlast]
      rfl
    have hplan : e.passPlan m pass = before.flatMap (e.passStatePlan m) ++
        (e.passStatePlan m s ++ after.flatMap (e.passStatePlan m)) := by
      rw [passPlan, hstates, List.flatMap_append, List.flatMap_cons]
    have hok := (Plan.answer_of_append_eq_ok (hplan ▸ hanswer)).2
    obtain ⟨rest, hactions, hrest⟩ :=
      exists_actions_statePlan hnested hs (Plan.answer_of_append_eq_ok hok).1
    have hmem : s ∈ pass.states := hstates ▸ List.mem_append_right _ List.mem_cons_self
    refine .set (Plan.actions (before.flatMap (e.passStatePlan m)))
      (rest ++ Plan.actions (after.flatMap (e.passStatePlan m))) ⟨s, hmem, hs⟩ ?_ ?_
    · rw [hplan, Plan.actions_append, Plan.actions_append, passStatePlan, hactions, htold,
        List.cons_append]
    · intro a ha hkey
      rcases List.mem_append.1 ha with ha | ha
      · exact hrest a ha hkey
      · exact hspared after hafter (Plan.mem_keys.2 ⟨a, ha, hkey⟩)

end LinkedEffect

/-! ### Devices -/

/-- Lights and the material are no shaders. -/
lemma Work.shader_notMem_flushCalls (w : Work) (actions : List Action) (stage : Stage) :
    ∀ c ∈ (w.restart.assignAll actions).flushCalls, .shader stage ∉ c.keys := by
  intro c hc hkey
  obtain ⟨a, -, hkey, hcall⟩ := (exists_mem_flushCalls_assignAll w actions _).1 ⟨c, hc, hkey⟩
  cases a with
  | call c => cases hcall
  | light index op words =>
    rw [Action.keys] at hkey
    split at hkey <;> simp at hkey
  | material op words => simp [Action.keys] at hkey

namespace EffectState.Applied

variable {s : EffectState} {t p : Nat} {mode : Mode} {plan : Plan} {r : Response Unit}
  {stage : Stage}

/-- A pass that sets no shader leaves the shader as it is. -/
lemma shader_of_notMem (h : s.Applied t p mode plan r) (hplan : plan.answer = .ok ())
    (hkey : .shader stage ∉ plan.keys) (d : Device) :
    (d.applyAll r.calls).shader stage = d.shader stage := by
  have hquery := d.query_applyAll_of_forall_notMem fun c hc hmem =>
    hkey (Plan.attempted_eq_self hplan ▸ h.mem_keys_of_mem_calls hc hmem)
  exact (DeviceCall.shader.inj hquery).2

/-- A pass that is applied as a whole leaves the shader that it sets last. -/
lemma shader_of_actions (h : s.Applied t p mode plan r) (hfull : mode.full = true)
    (hplan : plan.answer = .ok ()) {before after : List Action} {shader : Option (Shared Shader)}
    (hactions : plan.actions = before ++ .call (.shader stage shader) :: after)
    (hafter : ∀ a ∈ after, .shader stage ∉ a.keys) (d : Device) :
    (d.applyAll r.calls).shader stage = shader := by
  have hcalls : r.calls = before.flatMap Action.calls ++ .shader stage shader ::
      (after.flatMap Action.calls ++ (s.work.restart.assignAll plan.actions).flushCalls) := by
    rw [h.calls, if_pos hplan, LinkedEffect.due_full hfull hplan]
    nth_rewrite 1 [hactions]
    simp [Action.calls]
  have hrest : ∀ c ∈ after.flatMap Action.calls ++
      (s.work.restart.assignAll plan.actions).flushCalls, .shader stage ∉ c.keys := by
    intro c hc hkey
    rcases List.mem_append.1 hc with hc | hc
    · obtain ⟨a, ha, hc⟩ := List.mem_flatMap.1 hc
      cases a with
      | call c' =>
        obtain rfl := List.mem_singleton.1 hc
        exact hafter _ ha hkey
      | light index op words | material op words => cases hc
    · exact s.work.shader_notMem_flushCalls _ stage c hc hkey
  have hkey : .shader stage ∈ (DeviceCall.shader stage shader).keys := List.mem_singleton_self _
  have hquery := d.query_applyAll_append_cons d (before.flatMap Action.calls) _ hkey hrest
  have hset : ((d.apply (.shader stage shader)).query (.shader stage)) = .shader stage shader := by
    cases stage <;> rfl
  rw [hcalls]
  exact (DeviceCall.shader.inj (hquery.trans hset)).2

end EffectState.Applied

namespace Host

variable {host : Host} {i d p : Nat} {s : EffectState}

/-- A pass that is begun binds the shaders that its description told just before: for a stage that
it sets, the shader that was told, if only that there is none; for a stage that it does not set,
none is told and the device keeps the one it has. -/
theorem describePass_beginPass (hhost : host.Reachable) (hs : host.state? i = some s)
    (hmanager : s.effect.manager = none) (hsamplers : s.linked.NoSamplerShaders)
    (hbegin : (s.perform host.device (.beginPass d p)).answer = .ok ()) :
    ∃ t pass description, s.effect.technique = some t ∧ s.linked.pass? t p = some pass ∧
      s.linked.describePass s.memory t p = .ok description ∧ ∀ stage,
        (pass.SetsShader stage →
          ((host.perform (.call i (.beginPass d p))).device d).shader stage =
            description.shader stage) ∧
        (¬pass.SetsShader stage → description.shader stage = none ∧
          ((host.perform (.call i (.beginPass d p))).device d).shader stage =
            (host.device d).shader stage) := by
  have hlaid := hhost.laidOut
  rcases EffectState.passCall_beginPass (hlaid.proper hs) (hlaid.counter_lt hs) d p with
    ⟨e, hrefuse⟩ | ⟨t, pass, hcall⟩
  · rw [EffectState.perform, hrefuse] at hbegin
    cases hbegin
  have hplan := hcall.applied.answer.1 hbegin
  have hdevice : (host.perform (.call i (.beginPass d p))).device d =
      (host.device d).applyAll (s.beginPass d p).calls := by
    have hsends : s.sendsTo (.beginPass d p) = some d := by
      rw [EffectState.sendsTo, EffectState.receiver, hmanager]
      rfl
    rw [(perform_call hs _).2.2, if_pos hsends, EffectState.perform]
  refine ⟨t, pass, _, EffectState.technique_of_passOf hcall.passOf, hcall.lookup,
    by rw [LinkedEffect.describePass, hcall.lookup], fun stage => ?_⟩
  have htold : PassDescription.shader
      { name := pass.name
        annotations := pass.annotations.length
        vertexShader := s.linked.lastShader? s.memory .vertexShader pass.states
        pixelShader := s.linked.lastShader? s.memory .pixelShader pass.states } stage =
      s.linked.lastShader? s.memory stage.stateClass pass.states := by
    cases stage <;> rfl
  rw [hdevice, htold]
  cases LinkedEffect.binds_passPlan hsamplers hplan stage with
  | spared hsets hkey hnone =>
    exact ⟨fun h => absurd h hsets,
      fun _ => ⟨hnone, hcall.applied.shader_of_notMem hplan hkey _⟩⟩
  | set before after hsets hactions hafter =>
    exact ⟨fun _ => hcall.applied.shader_of_actions rfl hplan hactions hafter _,
      fun h => absurd hsets h⟩

/-! ### A number that chooses a shader -/

/-- The type of a shader, or of an array of shaders. -/
def shaderDeclaration (stage : Stage) (name : Option String) (elements : UInt32) : Declaration :=
  ⟨name, none, .object, stage.type, 0, 0, elements⟩

/-- A state that sets the shader of a stage to an object. -/
def shaderState (stage : Stage) (id : UInt32) : Assignment Node where
  operation := match stage with
    | .vertex => 146
    | .pixel => 147
  index := 0
  value := .object (shaderDeclaration stage none 0) id

/-- An image with two pixel shaders, of which a number chooses one, and a vertex shader, which the
only pass sets first and then takes away. -/
def painter : Image where
  parameters := [
    ⟨0, .words (numberDeclaration (some "which")) [0], []⟩,
    ⟨0, .array (shaderDeclaration .pixel (some "inks") 2)
      [.object (shaderDeclaration .pixel (some "inks") 0) 1,
        .object (shaderDeclaration .pixel (some "inks") 0) 2], []⟩]
  techniques :=
    [⟨none, [], [⟨none, [], [shaderState .vertex 3, shaderState .pixel 0, shaderState .vertex 4]⟩]⟩]
  objectCount := 5
  objectData := [⟨1, (Shader.encode .pixel [] none).toArray⟩,
    ⟨2, (Shader.encode .pixel [] none).toArray⟩, ⟨3, (Shader.encode .vertex [] none).toArray⟩]
  resources := [⟨0, 0, noIndex, 1, 2,
    #[5, 0, 0, 0, 105, 110, 107, 115, 0, 0, 0, 0] ++ (copyProgram "which").encode.toArray⟩]

/-- An effect made from the image is begun, its number is one, and the device has a shader. -/
def painting : Host :=
  run {} [.create painter [] none, .call 0 (.begin 0 ⟨true, false, false⟩), .call 0 brighten,
    .send 0 [.shader .vertex (some ⟨7, ⟨.vertex, 2, 0, #[], .empty, none⟩⟩)]]

/-- The second pixel shader is bound, and no vertex shader in place of the one the device had. -/
theorem describePass_beginPass_painting :
    ∃ s ∈ painting.state? 0, ((painting.device 0).shader .vertex).isSome = true ∧ ∃ description,
      s.linked.describePass s.memory 0 0 = .ok description ∧
      description.shader .vertex = none ∧ (description.shader .pixel).map (·.id) = some 1 ∧
      ∀ stage, ((painting.perform (.call 0 (.beginPass 0 0))).device 0).shader stage =
        description.shader stage := by
  obtain ⟨s, hs, hbound, hmanager, hsamplers, hbegin, htechnique, hsets, htold⟩ :
      ∃ s ∈ painting.state? 0, ((painting.device 0).shader .vertex).isSome = true ∧
        s.effect.manager = none ∧ s.linked.NoSamplerShaders ∧
        (s.perform painting.device (.beginPass 0 0)).answer = .ok () ∧
        s.effect.technique = some 0 ∧
        (∀ pass ∈ s.linked.pass? 0 0, pass.SetsShader .vertex ∧ pass.SetsShader .pixel) ∧
        ∀ description ∈ (s.linked.describePass s.memory 0 0).toOption,
          description.shader .vertex = none ∧
            (description.shader .pixel).map (·.id) = some 1 := by
    decide +kernel
  obtain ⟨t, pass, description, ht, hlookup, hdescription, hstages⟩ :=
    describePass_beginPass ⟨_, rfl⟩ hs hmanager hsamplers hbegin
  obtain rfl : 0 = t := Option.some.inj (htechnique.symm.trans ht)
  obtain ⟨hvertex, hpixel⟩ := htold description (by rw [hdescription]; rfl)
  obtain ⟨hsetsVertex, hsetsPixel⟩ := hsets pass hlookup
  refine ⟨s, hs, hbound, description, hdescription, hvertex, hpixel, fun stage => ?_⟩
  cases stage with
  | vertex => exact (hstages .vertex).1 hsetsVertex
  | pixel => exact (hstages .pixel).1 hsetsPixel

end Host

end ShaderEffect
