import ShaderEffect.Proofs.Plan.Later
import ShaderEffect.Proofs.Plan.Reach

/-!
# The states a pass can set

Which device states a pass sets depends on the objects its parameters hold and on the choices of
selectors, but on no other number. When a pass is recorded, the elements of an array stand for a
state that chooses one of them. So the recorded calls cover those of every application, as long as
no object changes and the states of samplers choose the same elements.
-/

namespace ShaderEffect

namespace Plan

/-- The keys of the states that a plan sets, due or not. -/
def keys (plan : Plan) : List StateKey := plan.actions.flatMap Action.keys

lemma keys_append (plan rest : Plan) : keys (plan ++ rest) = keys plan ++ keys rest := by
  simp [keys, actions_append]

lemma keys_flatMap {α : Type} (list : List α) (plan : α → Plan) :
    keys (list.flatMap plan) = list.flatMap fun a => keys (plan a) := by
  induction list with
  | nil => rfl
  | cons a rest ih => rw [List.flatMap_cons, keys_append, ih, List.flatMap_cons]

@[simp] lemma keys_map_under (inputs : List Handle) (plan : Plan) :
    keys (plan.map (.under inputs)) = keys plan := by
  simp [keys]

@[simp] lemma keys_ofActions (inputs : List Handle) (as : List Action) :
    keys (ofActions inputs as) = as.flatMap Action.keys := by
  simp [keys]

lemma mem_keys {plan : Plan} {key : StateKey} :
    key ∈ plan.keys ↔ ∃ a ∈ plan.actions, key ∈ a.keys :=
  List.mem_flatMap

/-- The keys of each event of a plan; a failure has none. -/
def footprint (plan : Plan) : List (Option (List StateKey)) :=
  plan.map fun event => event.action?.map Action.keys

lemma footprint_append (plan rest : Plan) :
    footprint (plan ++ rest) = footprint plan ++ footprint rest :=
  List.map_append

lemma footprint_flatMap {α : Type} (list : List α) (plan : α → Plan) :
    footprint (list.flatMap plan) = list.flatMap fun a => footprint (plan a) :=
  List.map_flatMap

@[simp] lemma footprint_map_under (inputs : List Handle) (plan : Plan) :
    footprint (plan.map (.under inputs)) = footprint plan := by
  simp [footprint, Function.comp_def]

@[simp] lemma footprint_ofActions (inputs : List Handle) (as : List Action) :
    footprint (ofActions inputs as) = as.map fun a => some a.keys := by
  simp [footprint, ofActions, Event.action?, Function.comp_def]

/-- What is attempted of a plan are the events before the first failure. -/
lemma keys_attempted (plan : Plan) :
    plan.attempted.keys = (plan.footprint.takeWhile Option.isSome).flatMap (·.getD []) := by
  induction plan with
  | nil => rfl
  | cons event plan ih => cases event with
    | act inputs action => exact congrArg (action.keys ++ ·) ih
    | fail error => rfl

lemma keys_attempted_congr {plan plan' : Plan} (h : plan'.footprint = plan.footprint) :
    plan'.attempted.keys = plan.attempted.keys := by
  rw [keys_attempted, keys_attempted, h]

lemma attempted_append_subset (plan rest : Plan) :
    (plan ++ rest).attempted ⊆ plan.attempted ++ rest.attempted := by
  induction plan with
  | nil => exact List.Subset.refl _
  | cons event plan ih => cases event with
    | act inputs action => exact List.cons_subset_cons _ ih
    | fail error => exact List.nil_subset _

lemma keys_subset {plan plan' : Plan} (h : plan' ⊆ plan) : plan'.keys ⊆ plan.keys := by
  intro key hkey
  obtain ⟨a, ha, hkey⟩ := mem_keys.1 hkey
  obtain ⟨event, hevent, ha⟩ := List.mem_filterMap.1 ha
  exact mem_keys.2 ⟨a, List.mem_filterMap.2 ⟨event, h hevent, ha⟩, hkey⟩

/-- What is attempted of plans that follow each other is attempted of one of them. -/
lemma exists_mem_keys_attempted {α : Type} {list : List α} {plan : α → Plan} {key : StateKey}
    (h : key ∈ (attempted (list.flatMap plan)).keys) :
    ∃ a ∈ list, key ∈ (plan a).attempted.keys := by
  induction list with
  | nil => cases h
  | cons a rest ih =>
    rw [List.flatMap_cons] at h
    have h := keys_subset (attempted_append_subset ..) h
    rw [keys_append] at h
    rcases List.mem_append.1 h with h | h
    · exact ⟨a, List.mem_cons_self, h⟩
    · obtain ⟨b, hb, h⟩ := ih h
      exact ⟨b, List.mem_cons_of_mem _ hb, h⟩

end Plan

/-! ### Sizes that do not depend on values -/

namespace Program

lemma size_outputs_write (regs : Registers) (operand : Operand) (lane : Nat) (value : Double) :
    (regs.write operand lane value).outputs.size = regs.outputs.size := by
  rw [Registers.write]
  split <;> simp

lemma size_outputs_run (ins : Instruction) (regs : Registers) :
    (ins.run regs).outputs.size = regs.outputs.size := by
  rw [Instruction.run]
  split
  · exact size_outputs_write ..
  · induction List.range ins.components generalizing regs with
    | nil => rfl
    | cons lane rest ih => rw [List.foldl_cons, ih, size_outputs_write]

/-- A program computes as many numbers as its output bank has. -/
lemma size_run (p : Program) (inputs : Array Single) : (p.run inputs).size = p.outputLength := by
  have hsize : ∀ (instructions : List Instruction) (regs : Registers),
      (instructions.foldl (fun regs ins => ins.run regs) regs).outputs.size =
        regs.outputs.size := by
    intro instructions
    induction instructions with
    | nil => exact fun _ => rfl
    | cons ins rest ih => exact fun regs => by rw [List.foldl_cons, ih, size_outputs_run]
  rw [run, evaluate, hsize, start, Array.size_replicate]

end Program

lemma length_resize {α : Type} (n : Nat) (fill : α) (xs : List α) :
    (resize n fill xs).length = n := by
  simp only [resize, List.length_append, List.length_take, List.length_replicate]
  omega

lemma length_flatMap_registers {α : Type} (registers : List Register) (f : Scalar → α) :
    (registers.flatMap fun r => r.toList.map f).length = registers.length * 4 := by
  induction registers with
  | nil => rfl
  | cons r rest ih =>
    rw [List.flatMap_cons, List.length_append, ih, List.length_map, Vector.length_toList,
      List.length_cons]
    omega

namespace LinkedEffect

variable {e : LinkedEffect} {m m' : Memory}

lemma length_floatRegisters (h : Handle) (c : Constant) :
    (e.floatRegisters m h c).length = c.count * 4 := by
  rw [floatRegisters, length_flatMap_registers, registers, length_resize]

lemma length_intRegisters (h : Handle) (c : Constant) :
    (e.intRegisters m h c).length = c.count * 4 := by
  rw [intRegisters, length_flatMap_registers, registers, length_resize]

lemma length_boolRegisters (h : Handle) (c : Constant) :
    (e.boolRegisters m h c).length = c.count :=
  length_resize ..

lemma keys_upload (stage : Stage) (c : Constant) (h : Handle) :
    (e.upload m' stage c h).map DeviceCall.keys = (e.upload m stage c h).map DeviceCall.keys := by
  rw [upload, upload]
  cases c.set with
  | float4 | int4 | bool =>
    simp only [List.map_cons, List.map_nil, DeviceCall.keys, length_floatRegisters,
      length_intRegisters, length_boolRegisters]
  | sampler => rfl

lemma keys_resultCalls (stage : Stage) (p : Program) {result result' : Array Single}
    (hsize : result'.size = result.size) :
    (resultCalls stage p result').map DeviceCall.keys =
      (resultCalls stage p result).map DeviceCall.keys := by
  simp only [resultCalls, hsize]
  induction p.writtenRegisters with
  | nil => rfl
  | cons r rest ih =>
    by_cases hr : r * 4 + 4 ≤ result.size
    · simp only [List.filterMap_cons, if_pos hr, List.map_cons, ih, DeviceCall.keys,
        Array.length_toList, Array.size_extract, hsize]
    · simp only [List.filterMap_cons, if_neg hr, ih]

lemma keys_constantCalls (op start : UInt32) {words words' : List UInt32}
    (hlen : words'.length = words.length) :
    (constantCalls op start words').map DeviceCall.keys =
      (constantCalls op start words).map DeviceCall.keys := by
  rw [constantCalls, constantCalls]
  split <;> simp [DeviceCall.keys, wholeRegisters, hlen]

/-! ### Plans of the same shape -/

variable {nested nested' : SamplerPlan}

lemma footprint_ofCalls (inputs : List Handle) {calls calls' : List DeviceCall}
    (h : calls'.map DeviceCall.keys = calls.map DeviceCall.keys) :
    (Plan.ofActions inputs (calls'.map .call)).footprint =
      (Plan.ofActions inputs (calls.map .call)).footprint := by
  simpa [Action.keys, Function.comp_def] using congrArg (List.map some) h

lemma footprint_constantPlan (stage : Stage) {c : Constant}
    (hnested : ∀ index, ∀ i ∈ e.constantSamplers c,
      (nested' index i).footprint = (nested index i).footprint) :
    (e.constantPlan m' nested' stage c).footprint =
      (e.constantPlan m nested stage c).footprint := by
  rw [constantPlan, constantPlan]
  split
  · rfl
  · rename_i hskip
    cases hfind : e.tree.find? none c.name with
    | none => rfl
    | some h =>
      by_cases hset : c.set = .sampler
      · simp only [if_pos hset, Plan.footprint_map_under, samplersPlan_eq, Plan.footprint_flatMap]
        refine List.flatMap_congr fun x hmem => hnested _ x.1 ?_
        exact mem_constantSamplers hskip hfind hset (List.fst_mem_of_mem_zipIdx hmem)
      · simp only [if_neg hset]
        exact footprint_ofCalls _ (keys_upload ..)

lemma footprint_shaderPlan (hm : e.SameShape m m') (stage : Stage) {h : Handle}
    (hnested : ∀ index shader, e.shader? m h = some shader → ∀ i ∈ e.shaderSamplers shader.value,
      (nested' index i).footprint = (nested index i).footprint) :
    (e.shaderPlan m' nested' stage h).footprint = (e.shaderPlan m nested stage h).footprint := by
  rw [shaderPlan, shaderPlan, hm.shader?]
  refine congrArg (some _ :: ·) ?_
  cases hlookup : e.shader? m h with
  | none => rfl
  | some s =>
    change (e.constantsPlan m' nested' s.value).footprint =
      (e.constantsPlan m nested s.value).footprint
    rw [constantsPlan, constantsPlan, Plan.footprint_append, Plan.footprint_append,
      Plan.footprint_flatMap, Plan.footprint_flatMap]
    congr 1
    · exact List.flatMap_congr fun c hc => footprint_constantPlan s.value.stage
        fun index i hi => hnested index s hlookup i (List.mem_flatMap.2 ⟨c, hc, hi⟩)
    · split
      · exact footprint_ofCalls _ (keys_resultCalls _ _ (by
          rw [run, run, Program.size_run, Program.size_run]))
      · rfl

lemma footprint_plainActions (sampler : Option UInt32) (info : StateInfo) (index : UInt32)
    {v v' : StateValue} (hlen : v'.words.length = v.words.length) :
    (Plan.ofActions v'.inputs (e.plainActions m' sampler info index v')).footprint =
      (Plan.ofActions v.inputs (e.plainActions m sampler info index v)).footprint := by
  obtain ⟨cls, op, name⟩ := info
  cases cls with
  | shaderConstant =>
    simpa [plainActions, Action.keys, Function.comp_def] using
      congrArg (List.map some) (keys_constantCalls op index hlen)
  | _ => simp [plainActions, Action.keys, DeviceCall.keys]

/-- The value of a state has as many words as the parameter that holds it. -/
lemma length_words_of_stateValue {s : StateEntry} {v : StateValue}
    (hv : e.stateValue m s = .ok v) : v.words.length = (e.words m v.param).length := by
  cases takes_of_stateValue hv with
  | constant | parameter | selector => rfl
  | expression => exact length_resultWords ..

/-- What states of one operation set depends on the parameters that hold their values, and on what
the samplers set that they lead on to. -/
lemma footprint_statePlan (hm : e.SameShape m m') {s s' : StateEntry}
    (hoperation : s'.operation = s.operation) (hindex : s'.index = s.index)
    (hchoice : (e.chosen m' s').toOption = (e.chosen m s).toOption) (sampler : Option UInt32)
    (hnested : ∀ index, ∀ i ∈ e.samplersOf m s,
      (nested' index i).footprint = (nested index i).footprint) :
    (e.statePlan m' nested' sampler s').footprint = (e.statePlan m nested sampler s).footprint := by
  rw [statePlan, statePlan, hoperation, hindex]
  rw [chosen, chosen] at hchoice
  cases hinfo : StateTable.info? s.operation with
  | none => rfl
  | some info =>
    cases hv : e.stateValue m s with
    | error error =>
      cases hv' : e.stateValue m' s' with
      | error error' => rfl
      | ok v' =>
        rw [hv, hv'] at hchoice
        cases hchoice
    | ok v =>
      cases hv' : e.stateValue m' s' with
      | error error' =>
        rw [hv, hv'] at hchoice
        cases hchoice
      | ok v' =>
        rw [hv, hv'] at hchoice
        have hparam : v'.param = v.param := Option.some.inj hchoice
        have hlen : v'.words.length = v.words.length := by
          rw [length_words_of_stateValue hv, length_words_of_stateValue hv', hparam,
            hm.length_words]
        have hcandidate := param_mem_candidates hv
        have hshader : info.cls = .vertexShader ∨ info.cls = .pixelShader → ∀ stage,
            Plan.footprint ((e.shaderPlan m' nested' stage v'.param).map (.under v'.inputs)) =
              Plan.footprint ((e.shaderPlan m nested stage v.param).map (.under v.inputs)) := by
          intro hcls stage
          rw [Plan.footprint_map_under, Plan.footprint_map_under, hparam]
          refine footprint_shaderPlan hm stage fun index shader hlookup i hi => ?_
          obtain ⟨c, hc, hi⟩ := List.mem_flatMap.1 hi
          exact hnested index i (mem_samplersOf_of_shader hinfo hcls hcandidate hlookup hc hi)
        dsimp only
        rw [valuePlan, valuePlan]
        split
        · exact hshader (.inl ‹_›) _
        · exact hshader (.inr ‹_›) _
        · rw [hparam]
          exact hnested _ _ (mem_samplersOf_of_sampler hinfo ‹_› hcandidate)
        · exact footprint_plainActions sampler info s.index hlen

/-! ### Choices -/

/-- A state takes its value from the same parameter, or has no value, in two memories. -/
def SameChoice (e : LinkedEffect) (m m' : Memory) (s : StateEntry) : Prop :=
  (e.chosen m' s).toOption = (e.chosen m s).toOption

/-- The states that lie below some states choose the same parameters in two memories. -/
def SameChoicesBelow (e : LinkedEffect) (m m' : Memory) (states : List StateEntry) : Prop :=
  ∀ n, ∀ s ∈ e.statesBelow m (n + 1) states, e.SameChoice m m' s

/-- No state of a sampler is selected. -/
def NoSelectedSamplerStates (e : LinkedEffect) : Prop :=
  ∀ p ∈ e.tree.nodes, ∀ s ∈ p.states, s.isSelected = false

instance : Decidable e.NoSelectedSamplerStates :=
  inferInstanceAs (Decidable (∀ p ∈ e.tree.nodes, ∀ s ∈ p.states, s.isSelected = false))

/-- A state that is not selected always takes its value from its one candidate. -/
lemma chosen_of_not_selected {s : StateEntry} (hs : s.isSelected = false) :
    e.chosen m' s = e.chosen m s := by
  rw [chosen, chosen, stateValue, stateValue]
  cases hsource : s.source with
  | selector array p => simp [StateEntry.isSelected, hsource] at hs
  | _ => rfl

lemma NoSelectedSamplerStates.sameChoicesBelow (h : e.NoSelectedSamplerStates)
    (states : List StateEntry) : e.SameChoicesBelow m m' states := by
  intro n s hs
  obtain ⟨i, hi⟩ := exists_statesAt_of_mem_statesBelow_succ hs
  obtain ⟨p, hp, hmem⟩ := mem_statesAt.1 hi
  exact congrArg _ (chosen_of_not_selected (h p (Array.mem_of_getElem? hp) s hmem))

/-- A sampler sets the same states if its states, and those below, choose the same parameters. -/
lemma footprint_samplerPlan (hm : e.SameShape m m') (depth : Nat) {h : Handle}
    (hchoices : ∀ n, ∀ s ∈ e.statesBelow m n (e.statesAt h), e.SameChoice m m' s)
    (index : UInt32) :
    (e.samplerPlan m' depth index h).footprint = (e.samplerPlan m depth index h).footprint := by
  induction depth generalizing h index with
  | zero => rfl
  | succ depth ih =>
    rw [samplerPlan_succ, samplerPlan_succ, Plan.footprint_flatMap, Plan.footprint_flatMap]
    refine List.flatMap_congr fun s hs =>
      footprint_statePlan hm rfl rfl (hchoices 0 s hs) _ fun index' i hi => ?_
    exact ih (fun n s' hs' => hchoices (n + 1) s' (statesBelow_subset_succ hs hi n hs')) index'

/-! ### Recording covers applying -/

/-- The states that stand for a state differ from it in their source only, choose nothing, and take
their values from its candidates. -/
lemma recordedStates_spec {s s' : StateEntry} (h : s' ∈ e.recordedStates s) :
    s'.operation = s.operation ∧ s'.index = s.index ∧ s'.isSelected = false ∧
      e.candidates s' ⊆ e.candidates s := by
  rw [recordedStates] at h
  split at h
  · rename_i array p hsource
    split at h
    · rename_i q hq
      obtain ⟨member, hmember, rfl⟩ := List.mem_map.1 h
      refine ⟨rfl, rfl, rfl, fun i hi => ?_⟩
      obtain rfl := List.mem_singleton.1 hi
      simpa [candidates, hsource, hq] using hmember
    · cases h
  · rename_i hsource
    obtain rfl := List.mem_singleton.1 h
    refine ⟨rfl, rfl, ?_, List.Subset.refl _⟩
    rw [StateEntry.isSelected]
    split
    · exact absurd ‹_› (hsource _ _)
    · rfl

variable {p : Pass}

/-- A state sets in one memory what a recorded state of its pass sets in another, if they take their
values from the same parameter. -/
lemma footprint_passStatePlan (hm : e.SameShape m m')
    (hbelow : e.SameChoicesBelow m m' p.states) {s s₁ s₂ : StateEntry} (hs : s ∈ p.states)
    (hs₁ : s₁ ∈ e.recordedStates s) (hoperation : s₂.operation = s.operation)
    (hindex : s₂.index = s.index)
    (hchoice : (e.chosen m' s₂).toOption = (e.chosen m s₁).toOption) :
    (e.passStatePlan m' s₂).footprint = (e.passStatePlan m s₁).footprint := by
  obtain ⟨hoperation₁, hindex₁, -, hcandidates⟩ := recordedStates_spec hs₁
  refine footprint_statePlan hm (hoperation.trans hoperation₁.symm) (hindex.trans hindex₁.symm)
    hchoice none fun index i hi => ?_
  have hi : i ∈ e.samplersOf m s := samplersOf_subset hoperation₁ hcandidates hi
  exact footprint_samplerPlan hm _
    (fun n s' hs' => hbelow n s' (statesBelow_subset_succ hs hi n hs')) index

/-- What a pass is recorded to set does not depend on what its own states choose. -/
theorem keys_recordPlan_congr (hm : e.SameShape m m')
    (hbelow : e.SameChoicesBelow m m' p.states) :
    (e.recordPlan m' p).keys = (e.recordPlan m p).keys := by
  rw [recordPlan, recordPlan, Plan.keys_flatMap, Plan.keys_flatMap]
  refine List.flatMap_congr fun s' hs' => Plan.keys_attempted_congr ?_
  obtain ⟨s, hs, hs'⟩ := List.mem_flatMap.1 hs'
  obtain ⟨hoperation, hindex, hselected, -⟩ := recordedStates_spec hs'
  exact footprint_passStatePlan hm hbelow hs hs' hoperation hindex
    (congrArg _ (chosen_of_not_selected hselected))

/-- A state that has a value takes it from the same parameter as one of its recorded states. -/
lemma exists_recordedState {s : StateEntry} {v : StateValue} (hv : e.stateValue m' s = .ok v) :
    ∃ s' ∈ e.recordedStates s, (e.chosen m' s).toOption = (e.chosen m s').toOption := by
  have hcandidate := param_mem_candidates hv
  by_cases hs : s.isSelected = false
  · refine ⟨s, ?_, congrArg _ (chosen_of_not_selected hs)⟩
    rw [recordedStates]
    split
    · rename_i array p hsource
      simp [StateEntry.isSelected, hsource] at hs
    · exact List.mem_singleton.2 rfl
  · -- The chosen element is one of those that stand for the selector.
    cases hsource : s.source with
    | selector array p =>
      refine ⟨{ s with source := .parameter v.param }, ?_, by rw [chosen, hv]; rfl⟩
      simp only [candidates, hsource] at hcandidate
      simp only [recordedStates, hsource]
      cases hq : e.tree.node? array with
      | none => simp [hq] at hcandidate
      | some q =>
        simp only [hq, Option.map_some, Option.getD_some] at hcandidate
        exact List.mem_map.2 ⟨v.param, hcandidate, rfl⟩
    | _ => simp [StateEntry.isSelected, hsource] at hs

/-- What a pass comes to set, a recorded pass sets, whatever the states of the pass choose. -/
theorem keys_attempted_passPlan_subset (hm : e.SameShape m m')
    (hbelow : e.SameChoicesBelow m m' p.states) :
    (e.passPlan m' p).attempted.keys ⊆ (e.recordPlan m p).keys := by
  intro key hkey
  obtain ⟨s, hs, hkey⟩ := Plan.exists_mem_keys_attempted hkey
  cases hv : e.stateValue m' s with
  | error error =>
    rw [passStatePlan, statePlan, hv] at hkey
    cases hinfo : StateTable.info? s.operation with
    | none =>
      rw [hinfo] at hkey
      cases hkey
    | some info =>
      rw [hinfo] at hkey
      cases hkey
  | ok v =>
    obtain ⟨s', hs', hchoice⟩ := exists_recordedState (m := m) hv
    have hfootprint := footprint_passStatePlan hm hbelow hs hs' rfl rfl hchoice
    rw [recordPlan, Plan.keys_flatMap]
    exact List.mem_flatMap.2 ⟨s', List.mem_flatMap.2 ⟨s, hs, hs'⟩,
      Plan.keys_attempted_congr hfootprint ▸ hkey⟩

end LinkedEffect

end ShaderEffect
