import ShaderEffect.Proofs.Plan.Later
import ShaderEffect.Proofs.Plan.Reach

/-!
# What plans consist of

Whatever a pass consists of, all that makes its actions due are parameters, and its calls set
neither lights nor the material: these are sent when all their fields are assigned.
-/

namespace ShaderEffect

/-- Whether a state is set as a whole, from fields that were assigned before. -/
def StateKey.isAssigned : StateKey → Bool
  | .light _ | .material => true
  | _ => false

/-- Whether a state is a constant of a shader. -/
def StateKey.isConstant : StateKey → Bool
  | .floats .. | .ints .. | .bools .. => true
  | _ => false

lemma StateKey.isAssigned_of_isConstant (key : StateKey) (h : key.isConstant = true) :
    key.isAssigned = false := by
  cases key <;> first | rfl | cases h

/-- An action whose call, if it makes one, sets neither lights nor the material. -/
def Action.Direct (a : Action) : Prop :=
  a.isCall = true → ∀ key ∈ a.keys, key.isAssigned = false

/-- What happens as in every pass: it is due because parameters changed, and no call of it sets
lights or the material. -/
def Event.Regular (e : LinkedEffect) : Event → Prop
  | .act inputs action => (∀ h ∈ inputs, e.Stable h) ∧ action.Direct
  | .fail _ => True

namespace LinkedEffect

variable {e : LinkedEffect} {m : Memory} {nested : SamplerPlan}

/-- A plan in which nothing else happens than in passes. -/
def Regular (e : LinkedEffect) (plan : Plan) : Prop := ∀ event ∈ plan, event.Regular e

namespace Regular

lemma nil : e.Regular [] := fun _ h => by cases h

lemma append {plan rest : Plan} (hplan : e.Regular plan) (hrest : e.Regular rest) :
    e.Regular (plan ++ rest) := fun event hevent =>
  (List.mem_append.1 hevent).elim (hplan event) (hrest event)

lemma flatMap {α : Type} {list : List α} {plan : α → Plan} (h : ∀ a ∈ list, e.Regular (plan a)) :
    e.Regular (list.flatMap plan) := by
  intro event hevent
  obtain ⟨a, ha, hevent⟩ := List.mem_flatMap.1 hevent
  exact h a ha event hevent

lemma under {inputs : List Handle} {plan : Plan} (hinputs : ∀ h ∈ inputs, e.Stable h)
    (hplan : e.Regular plan) : e.Regular (plan.map (.under inputs)) := by
  intro event hevent
  obtain ⟨event, hmem, rfl⟩ := List.mem_map.1 hevent
  have hregular := hplan event hmem
  cases event with
  | fail error => exact hregular
  | act more action =>
    refine ⟨fun h hh => ?_, hregular.2⟩
    exact (List.mem_append.1 hh).elim (hinputs h) (hregular.1 h)

lemma ofActions {inputs : List Handle} {actions : List Action}
    (hinputs : ∀ h ∈ inputs, e.Stable h) (hactions : ∀ a ∈ actions, a.Direct) :
    e.Regular (.ofActions inputs actions) := by
  intro event hevent
  obtain ⟨a, ha, rfl⟩ := List.mem_map.1 hevent
  exact ⟨hinputs, hactions a ha⟩

end Regular

/-! ### Calls -/

/-- Calls that set neither lights nor the material. -/
lemma direct_map_call {calls : List DeviceCall}
    (h : ∀ c ∈ calls, ∀ key ∈ c.keys, key.isAssigned = false) :
    ∀ a ∈ calls.map Action.call, a.Direct := by
  intro a ha _
  obtain ⟨c, hc, rfl⟩ := List.mem_map.1 ha
  exact h c hc

/-- Calls that set constants of shaders and nothing else. -/
def SetConstants (calls : List DeviceCall) : Prop :=
  ∀ c ∈ calls, ∀ key ∈ c.keys, key.isConstant = true

lemma SetConstants.direct {calls : List DeviceCall} (h : SetConstants calls) :
    ∀ a ∈ calls.map Action.call, a.Direct :=
  direct_map_call fun c hc key hkey => key.isAssigned_of_isConstant (h c hc key hkey)

lemma isConstant_of_mem_registers {stage : Stage} {start : UInt32} {c : DeviceCall}
    (hc : (∃ values, c = .floats stage start values) ∨ (∃ values, c = .ints stage start values) ∨
      ∃ values, c = .bools stage start values) {key : StateKey} (hkey : key ∈ c.keys) :
    key.isConstant = true := by
  rcases hc with ⟨values, rfl⟩ | ⟨values, rfl⟩ | ⟨values, rfl⟩ <;>
  · obtain ⟨register, -, rfl⟩ := List.mem_map.1 hkey
    rfl

lemma setConstants_upload (stage : Stage) (c : Constant) (h : Handle) :
    SetConstants (e.upload m stage c h) := by
  intro call hcall key hkey
  rw [upload] at hcall
  split at hcall
  · obtain rfl := List.mem_singleton.1 hcall
    exact isConstant_of_mem_registers (.inl ⟨_, rfl⟩) hkey
  · obtain rfl := List.mem_singleton.1 hcall
    exact isConstant_of_mem_registers (.inr (.inl ⟨_, rfl⟩)) hkey
  · obtain rfl := List.mem_singleton.1 hcall
    exact isConstant_of_mem_registers (.inr (.inr ⟨_, rfl⟩)) hkey
  · cases hcall

lemma setConstants_resultCalls (stage : Stage) (p : Program) (result : Array Single) :
    SetConstants (resultCalls stage p result) := by
  intro call hcall key hkey
  obtain ⟨r, -, hr⟩ := List.mem_filterMap.1 hcall
  split at hr
  · cases hr
    exact isConstant_of_mem_registers (.inl ⟨_, rfl⟩) hkey
  · cases hr

lemma setConstants_constantCalls (op start : UInt32) (words : List UInt32) :
    SetConstants (constantCalls op start words) := by
  intro call hcall key hkey
  rw [constantCalls] at hcall
  split at hcall
  all_goals
    first
    | cases hcall
      done
    | obtain rfl := List.mem_singleton.1 hcall
      obtain ⟨register, -, rfl⟩ := List.mem_map.1 hkey
      rfl

lemma direct_plainActions (sampler : Option UInt32) (info : StateInfo) (index : UInt32)
    (v : StateValue) : ∀ a ∈ e.plainActions m sampler info index v, a.Direct := by
  obtain ⟨cls, op, name⟩ := info
  cases cls with
  | shaderConstant => exact (setConstants_constantCalls op index v.words).direct
  | vertexShader | pixelShader | sampler => exact fun a ha => by cases ha
  | _ =>
    intro a ha hcall key hkey
    obtain rfl := List.mem_singleton.1 ha
    first
    | cases hcall
      done
    | obtain rfl := List.mem_singleton.1 hkey
      rfl

/-! ### Passes -/

/-- Samplers that do nothing else than passes do. -/
def RegularSamplers (e : LinkedEffect) (nested : SamplerPlan) : Prop :=
  ∀ index h, e.Regular (nested index h)

lemma regular_constantPlan (hsettled : e.Settled) (hnested : e.RegularSamplers nested)
    (stage : Stage) (c : Constant) : e.Regular (e.constantPlan m nested stage c) := by
  rw [constantPlan]
  split
  · exact .nil
  · cases hfind : e.tree.find? none c.name with
    | none => exact .nil
    | some h =>
      have hh : ∀ h' ∈ [h], e.Stable h' := fun h' hh' => by
        obtain rfl := List.mem_singleton.1 hh'
        exact hsettled.find _ _ hfind
      simp only
      split
      · refine .under hh ?_
        rw [samplersPlan]
        split
        · exact .nil
        · split
          · exact .flatMap fun _ _ => hnested _ _
          · exact .nil
      · exact .ofActions hh (setConstants_upload stage c h).direct

lemma regular_shaderPlan (hsettled : e.Settled) (hnested : e.RegularSamplers nested)
    (stage : Stage) (h : Handle) : e.Regular (e.shaderPlan m nested stage h) := by
  have hcalls : ∀ a ∈ [DeviceCall.shader stage (e.shader? m h)].map Action.call, a.Direct := by
    refine direct_map_call fun call hcall key hkey => ?_
    obtain rfl := List.mem_singleton.1 hcall
    obtain rfl := List.mem_singleton.1 hkey
    rfl
  have hset : e.Regular (.ofActions [] ([.shader stage (e.shader? m h)].map .call)) :=
    .ofActions (fun _ h => by cases h) hcalls
  rw [shaderPlan]
  refine Regular.append hset ?_
  cases e.shader? m h with
  | none => exact .nil
  | some s =>
    refine .append (.flatMap fun c _ => regular_constantPlan hsettled hnested _ c) ?_
    cases s.value.program with
    | none => exact .nil
    | some p =>
      exact .ofActions (fun _ hh => stable_of_mem_handles_boundProgram hsettled hh)
        (setConstants_resultCalls _ p _).direct

lemma regular_statePlan (hsettled : e.Settled) (hnested : e.RegularSamplers nested)
    (sampler : Option UInt32) {s : StateEntry} (hs : e.Sound s) :
    e.Regular (e.statePlan m nested sampler s) := by
  rw [statePlan]
  split
  · exact .nil
  · split
    · exact fun event hevent => List.mem_singleton.1 hevent ▸ trivial
    · rename_i v hv
      have hinputs := fun h hh => hs.stable h (inputs_subset_reads hv hh)
      rw [valuePlan]
      split
      · exact .under hinputs (regular_shaderPlan hsettled hnested _ _)
      · exact .under hinputs (regular_shaderPlan hsettled hnested _ _)
      · exact hnested _ _
      · exact .ofActions hinputs (direct_plainActions _ _ _ _)

lemma regularSamplers_samplerPlan (hsettled : e.Settled) (depth : Nat) :
    e.RegularSamplers (e.samplerPlan m depth) := by
  induction depth with
  | zero => exact fun _ _ => .nil
  | succ depth ih =>
    intro index h
    rw [samplerPlan]
    cases hp : e.tree.node? h with
    | none => exact .nil
    | some p => exact .flatMap fun s hs =>
        regular_statePlan hsettled ih _ (hsettled.nodes h p hp s hs)

/-- Whatever a pass consists of, nothing irregular happens. -/
theorem regular_passPlan (hsettled : e.Settled) {p : Pass}
    (hp : ∀ s ∈ p.states, e.Sound s) : e.Regular (e.passPlan m p) :=
  .flatMap fun s hs =>
    regular_statePlan hsettled (regularSamplers_samplerPlan hsettled _) none (hp s hs)

end LinkedEffect

end ShaderEffect
