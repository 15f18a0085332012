import ShaderEffect.Effect.Usage
import ShaderEffect.Proofs.Plan.Build

/-!
# What states lead on to

A state that sets a sampler leads on to the states of the sampler, and a state that sets a shader to
those of the samplers that the constants of the shader name. Which samplers these are depends on the
objects that parameters hold and on the choices of selectors; here a selector counts with all
elements of its array.
-/

namespace ShaderEffect.LinkedEffect

variable (e : LinkedEffect) (m : Memory)

/-- The samplers of a parameter that a constant names. -/
def namedSamplers (c : Constant) (h : Handle) : List Handle :=
  match e.tree.node? h with
  | none => []
  | some p => if p.decl.type.isSampler then (p.samplers h).take (max c.count 1) else []

/-- The samplers that a shader is brought with a constant. -/
def constantSamplers (c : Constant) : List Handle :=
  if e.skip.contains c.name then []
  else match e.tree.find? none c.name with
  | none => []
  | some h => if c.set = .sampler then e.namedSamplers c h else []

/-- The samplers that a shader is brought with its constants. -/
def shaderSamplers (s : Shader) : List Handle := s.constants.constants.flatMap e.constantSamplers

/-- The samplers that a state sets, itself or through its shader, whatever its selector chooses. -/
def samplersOf (s : StateEntry) : List Handle :=
  match StateTable.info? s.operation with
  | none => []
  | some info => match info.cls with
    | .sampler => e.candidates s
    | .vertexShader | .pixelShader => (e.candidates s).flatMap fun h => match e.shader? m h with
      | some shader => e.shaderSamplers shader.value
      | none => []
    | _ => []

/-- The states that lie a number of levels of samplers below some states. -/
def statesBelow : Nat → List StateEntry → List StateEntry
  | 0, states => states
  | n + 1, states => statesBelow n ((states.flatMap (e.samplersOf m)).flatMap e.statesAt)

variable {e m} {nested : SamplerPlan}

lemma samplersPlan_eq (nested : SamplerPlan) (stage : Stage) (c : Constant) (h : Handle) :
    e.samplersPlan nested stage c h = (e.namedSamplers c h).zipIdx.flatMap fun (s, k) =>
      nested (UInt32.ofNat c.index + stage.firstSampler + UInt32.ofNat k) s := by
  rw [samplersPlan, namedSamplers]
  cases e.tree.node? h with
  | none => rfl
  | some p =>
    dsimp only
    split <;> rfl

lemma samplerPlan_succ (depth : Nat) (index : UInt32) (h : Handle) :
    e.samplerPlan m (depth + 1) index h =
      (e.statesAt h).flatMap (e.statePlan m (e.samplerPlan m depth) (some index)) := by
  rw [samplerPlan, statesAt]
  cases e.tree.node? h with
  | none => rfl
  | some p => rfl

lemma mem_statesAt {h : Handle} {s : StateEntry} :
    s ∈ e.statesAt h ↔ ∃ p, e.tree.node? h = some p ∧ s ∈ p.states := by
  rw [statesAt]
  cases e.tree.node? h <;> simp

/-- A state takes its value from one of its candidates. -/
lemma param_mem_candidates {s : StateEntry} {v : StateValue} (hv : e.stateValue m s = .ok v) :
    v.param ∈ e.candidates s := by
  rw [candidates]
  cases takes_of_stateValue hv with
  | constant hsource | parameter hsource | expression hsource =>
    rw [hsource]
    exact List.mem_singleton_self _
  | selector hsource hselect =>
    rw [hsource]
    exact mem_members_of_select hselect

/-- What makes a state due are parameters that it reads. -/
lemma inputs_subset_reads {s : StateEntry} {v : StateValue} (hv : e.stateValue m s = .ok v) :
    v.inputs ⊆ e.reads s := by
  rw [reads]
  cases takes_of_stateValue hv with
  | constant => exact List.nil_subset _
  | parameter hsource | expression hsource =>
    rw [hsource]
    exact List.Subset.refl _
  | selector hsource =>
    rw [hsource]
    intro i hi
    refine List.mem_append_left _ ?_
    rcases List.mem_append.1 hi with hi | hi
    · exact List.mem_cons_of_mem _ hi
    · exact List.mem_singleton.1 hi ▸ List.mem_cons_self

/-- The candidates of a state are read, but for what an expression stores over. -/
lemma candidates_subset (s : StateEntry) : e.candidates s ⊆ s.param :: e.reads s := by
  rw [candidates, reads]
  cases s.source with
  | constant | expression p => exact List.cons_subset_cons _ (List.nil_subset _)
  | parameter h => exact List.subset_cons_self _ _
  | selector array p =>
    exact fun h hh => List.mem_cons_of_mem _ (List.mem_append_right _ hh)

/-- A shader that a state sets brings samplers of the state. -/
lemma mem_samplersOf_of_shader {s : StateEntry} {info : StateInfo}
    (hinfo : StateTable.info? s.operation = some info)
    (hcls : info.cls = .vertexShader ∨ info.cls = .pixelShader) {h : Handle}
    (hh : h ∈ e.candidates s) {shader : Shared Shader} (hshader : e.shader? m h = some shader)
    {c : Constant} (hc : c ∈ shader.value.constants.constants) {i : Handle}
    (hi : i ∈ e.constantSamplers c) : i ∈ e.samplersOf m s := by
  have hmem : i ∈ (e.candidates s).flatMap fun h => match e.shader? m h with
      | some shader => e.shaderSamplers shader.value
      | none => [] :=
    List.mem_flatMap.2 ⟨h, hh, by rw [hshader]; exact List.mem_flatMap.2 ⟨c, hc, hi⟩⟩
  rw [samplersOf, hinfo]
  rcases hcls with hcls | hcls <;>
  · simp only [hcls]
    exact hmem

lemma mem_samplersOf_of_sampler {s : StateEntry} {info : StateInfo}
    (hinfo : StateTable.info? s.operation = some info) (hcls : info.cls = .sampler) {h : Handle}
    (hh : h ∈ e.candidates s) : h ∈ e.samplersOf m s := by
  simp only [samplersOf, hinfo, hcls]
  exact hh

/-- A sampler that a state sets is a candidate, or comes with a shader that is one. -/
lemma candidate_of_mem_samplersOf {s : StateEntry} {i : Handle} (hi : i ∈ e.samplersOf m s) :
    i ∈ e.candidates s ∨ ∃ h ∈ e.candidates s, ∃ shader, e.shader? m h = some shader ∧
      i ∈ e.shaderSamplers shader.value := by
  rw [samplersOf] at hi
  split at hi
  · cases hi
  · split at hi
    case h_1 => exact .inl hi
    case h_4 => cases hi
    -- the two kinds of shaders
    all_goals
      obtain ⟨h, hh, hi⟩ := List.mem_flatMap.1 hi
      cases hshader : e.shader? m h with
      | none => simp [hshader] at hi
      | some shader => exact .inr ⟨h, hh, shader, hshader, by simpa [hshader] using hi⟩

/-- A state with fewer candidates sets fewer samplers. -/
lemma samplersOf_subset {s s' : StateEntry} (hoperation : s'.operation = s.operation)
    (hcandidates : e.candidates s' ⊆ e.candidates s) : e.samplersOf m s' ⊆ e.samplersOf m s := by
  intro i hi
  rw [samplersOf, hoperation] at hi
  rw [samplersOf]
  have hshaders : ∀ f : Handle → List Handle,
      i ∈ (e.candidates s').flatMap f → i ∈ (e.candidates s).flatMap f := fun f hi =>
    have ⟨h, hh, hi⟩ := List.mem_flatMap.1 hi
    List.mem_flatMap.2 ⟨h, hcandidates hh, hi⟩
  split
  · simp_all
  · rename_i info hinfo
    simp only [hinfo] at hi
    split at hi
    · exact hcandidates hi
    · exact hshaders _ hi
    · exact hshaders _ hi
    · cases hi

/-- The sampler that a constant leads to is brought with it, unless the constant is skipped. -/
lemma mem_constantSamplers {c : Constant} (hskip : ¬e.skip.contains c.name = true) {h : Handle}
    (hfind : e.tree.find? none c.name = some h) (hset : c.set = .sampler) {i : Handle}
    (hi : i ∈ e.namedSamplers c h) : i ∈ e.constantSamplers c := by
  rw [constantSamplers, if_neg hskip, hfind]
  simp only [if_pos hset]
  exact hi

/-! ### Levels -/

lemma statesBelow_subset {states states' : List StateEntry} (h : states ⊆ states') (n : Nat) :
    e.statesBelow m n states ⊆ e.statesBelow m n states' := by
  induction n generalizing states states' with
  | zero => exact h
  | succ n ih =>
    refine ih fun s hs => ?_
    obtain ⟨i, hi, hs⟩ := List.mem_flatMap.1 hs
    obtain ⟨s₀, hs₀, hi⟩ := List.mem_flatMap.1 hi
    exact List.mem_flatMap.2 ⟨i, List.mem_flatMap.2 ⟨s₀, h hs₀, hi⟩, hs⟩

/-- What lies below the states of a sampler lies one level deeper below the state that sets it. -/
lemma statesBelow_subset_succ {states : List StateEntry} {s : StateEntry} (hs : s ∈ states)
    {h : Handle} (hh : h ∈ e.samplersOf m s) (n : Nat) :
    e.statesBelow m n (e.statesAt h) ⊆ e.statesBelow m (n + 1) states :=
  statesBelow_subset
    (fun _ hs' => List.mem_flatMap.2 ⟨h, List.mem_flatMap.2 ⟨s, hs, hh⟩, hs'⟩) n

/-- What lies below some states are states of samplers. -/
lemma exists_statesAt_of_mem_statesBelow_succ {states : List StateEntry} {n : Nat}
    {s : StateEntry} (hs : s ∈ e.statesBelow m (n + 1) states) : ∃ h, s ∈ e.statesAt h := by
  induction n generalizing states with
  | zero =>
    obtain ⟨h, -, hs⟩ := List.mem_flatMap.1 hs
    exact ⟨h, hs⟩
  | succ n ih => exact ih hs

end ShaderEffect.LinkedEffect
