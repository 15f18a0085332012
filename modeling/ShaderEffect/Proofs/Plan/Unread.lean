import ShaderEffect.Proofs.Link.Sources
import ShaderEffect.Proofs.Plan.Later
import ShaderEffect.Proofs.Plan.Reach

/-!
# Plans that do not read a block

The plan of a state is found by reading parameters, and what it contains is due when some of these
were written. If nothing that a state can come to read is in a block, the block may hold anything:
the plan stays, and so does what is due of it (`LinkedEffect.Kept`).
-/

namespace ShaderEffect.LinkedEffect

/-- A parameter is not in a block. -/
def Outside (e : LinkedEffect) (b : Nat) (h : Handle) : Prop := e.blockOf? h ≠ some b

/-- A shader none of whose constants and inputs is in a block. -/
structure Spares (e : LinkedEffect) (b : Nat) (s : Shader) : Prop where
  constants : ∀ c ∈ s.constants.constants, ∀ h, e.tree.find? none c.name = some h → e.Outside b h
  inputs : ∀ p, s.program = some p → ∀ h ∈ (e.boundProgram p).handles, e.Outside b h

/-- A state that reads nothing in a block, whichever of its candidates has its value, and sets no
shader that does. -/
structure Unread (e : LinkedEffect) (m : Memory) (b : Nat) (s : StateEntry) : Prop where
  own : e.Outside b s.param
  reads : ∀ h ∈ e.reads s, e.Outside b h
  shaders : ∀ h ∈ e.candidates s, ∀ shader, e.shader? m h = some shader → e.Spares b shader.value

/-- In another memory the same is planned, and nothing in a block makes any of it due. -/
structure Kept (e : LinkedEffect) (b : Nat) (plan plan' : Plan) : Prop where
  eq : plan' = plan
  outside : ∀ inputs action, .act inputs action ∈ plan → ∀ h ∈ inputs, e.Outside b h

variable {e : LinkedEffect} {m m' : Memory} {b : Nat} {nested nested' : SamplerPlan}

namespace Kept

lemma nil : e.Kept b [] [] := ⟨rfl, fun _ _ h => by cases h⟩

lemma fail (error : EvaluationError) : e.Kept b [.fail error] [.fail error] :=
  ⟨rfl, fun _ _ h => by simp at h⟩

lemma append {plan plan' rest rest' : Plan} (hplan : e.Kept b plan plan')
    (hrest : e.Kept b rest rest') : e.Kept b (plan ++ rest) (plan' ++ rest') where
  eq := by rw [hplan.eq, hrest.eq]
  outside inputs action hmem :=
    (List.mem_append.1 hmem).elim (hplan.outside inputs action) (hrest.outside inputs action)

lemma flatMap {α : Type} {list : List α} {plan plan' : α → Plan}
    (h : ∀ a ∈ list, e.Kept b (plan a) (plan' a)) :
    e.Kept b (list.flatMap plan) (list.flatMap plan') where
  eq := List.flatMap_congr fun a ha => (h a ha).eq
  outside inputs action hmem := by
    obtain ⟨a, ha, hmem⟩ := List.mem_flatMap.1 hmem
    exact (h a ha).outside inputs action hmem

lemma under {inputs : List Handle} {plan plan' : Plan} (hinputs : ∀ h ∈ inputs, e.Outside b h)
    (h : e.Kept b plan plan') :
    e.Kept b (plan.map (.under inputs)) (plan'.map (.under inputs)) where
  eq := by rw [h.eq]
  outside all action hmem i hi := by
    obtain ⟨event, hevent, heq⟩ := List.mem_map.1 hmem
    cases event with
    | fail error => cases heq
    | act more action' =>
      cases heq
      exact (List.mem_append.1 hi).elim (hinputs i) (h.outside more action hevent i)

lemma ofActions {inputs : List Handle} {actions actions' : List Action}
    (hinputs : ∀ h ∈ inputs, e.Outside b h) (h : actions' = actions) :
    e.Kept b (.ofActions inputs actions) (.ofActions inputs actions') where
  eq := by rw [h]
  outside all action hmem := by
    obtain ⟨a, -, heq⟩ := List.mem_map.1 hmem
    cases heq
    exact hinputs

end Kept

/-! ### Memories that differ in one block -/

section

variable (hm : ∀ id, id ≠ b → m'.block id = m.block id)
include hm

lemma block_eq_of_outside {h : Handle} (hh : e.Outside b h) :
    ∀ id, e.blockOf? h = some id → m'.block id = m.block id :=
  fun id hid => hm id fun heq => hh (heq ▸ hid)

lemma words_eq_of_outside {h : Handle} (hh : e.Outside b h) : e.words m' h = e.words m h :=
  words_congr (block_eq_of_outside hm hh)

lemma object?_eq_of_outside {h : Handle} (hh : e.Outside b h) :
    e.object? m' h = e.object? m h := by
  have hobjects : e.objects m' h = e.objects m h :=
    objects_congr fun id hid => by rw [block_eq_of_outside hm hh id hid]
  rw [object?, object?, hobjects]

lemma shader?_eq_of_outside {h : Handle} (hh : e.Outside b h) :
    e.shader? m' h = e.shader? m h := by
  rw [shader?, shader?, object?_eq_of_outside hm hh]

/-- What is due of a plan stays as well. -/
lemma Kept.due_eq {plan plan' : Plan} (h : e.Kept b plan plan') (mode : Mode) :
    e.due m' mode plan' = e.due m mode plan := by
  obtain ⟨rfl, houtside⟩ := h
  induction plan' with
  | nil => rfl
  | cons event plan ih => cases event with
    | fail error => rfl
    | act inputs action =>
      have hdirty : e.anyDirty m' inputs mode.since = e.anyDirty m inputs mode.since := by
        rw [anyDirty, anyDirty, Bool.eq_iff_iff, List.any_eq_true, List.any_eq_true]
        refine exists_congr fun h => and_congr_right fun hmem => ?_
        have hh := houtside inputs action List.mem_cons_self h hmem
        rw [isDirty, isDirty, version_congr (block_eq_of_outside hm hh)]
      rw [due, due, hdirty, ih fun inputs action hmem =>
        houtside inputs action (List.mem_cons_of_mem _ hmem)]

/-! ### The plan of a state -/

lemma kept_constantPlan (stage : Stage) {c : Constant}
    (hc : ∀ h, e.tree.find? none c.name = some h → e.Outside b h)
    (hnested : ∀ index, ∀ i ∈ e.constantSamplers c, e.Kept b (nested index i) (nested' index i)) :
    e.Kept b (e.constantPlan m nested stage c) (e.constantPlan m' nested' stage c) := by
  rw [constantPlan, constantPlan]
  split
  · exact .nil
  · rename_i hskip
    cases hfind : e.tree.find? none c.name with
    | none => exact .nil
    | some h =>
      have hinputs : ∀ i ∈ [h], e.Outside b i := by simpa using hc h hfind
      by_cases hset : c.set = .sampler
      · simp only [if_pos hset, samplersPlan_eq]
        refine .under hinputs (.flatMap fun x hmem => hnested _ x.1 ?_)
        exact mem_constantSamplers hskip hfind hset (List.fst_mem_of_mem_zipIdx hmem)
      · simp only [if_neg hset]
        exact .ofActions hinputs (by rw [upload_congr (words_eq_of_outside hm (hc h hfind))])

lemma kept_shaderPlan (stage : Stage) {h : Handle} (hh : e.Outside b h)
    (hshader : ∀ shader, e.shader? m h = some shader → e.Spares b shader.value)
    (hnested : ∀ index shader, e.shader? m h = some shader →
      ∀ i ∈ e.shaderSamplers shader.value, e.Kept b (nested index i) (nested' index i)) :
    e.Kept b (e.shaderPlan m nested stage h) (e.shaderPlan m' nested' stage h) := by
  rw [shaderPlan, shaderPlan, shader?_eq_of_outside hm hh]
  have hbind : ∀ action, e.Kept b (.ofActions [] [action]) (.ofActions [] [action]) :=
    fun _ => .ofActions (fun _ hmem => by cases hmem) rfl
  refine (hbind _).append ?_
  cases hlookup : e.shader? m h with
  | none => exact .nil
  | some s =>
    have hspares := hshader s hlookup
    refine .append (.flatMap fun c hc => kept_constantPlan hm _ (hspares.constants c hc)
      fun index i hi => hnested index s hlookup i (List.mem_flatMap.2 ⟨c, hc, hi⟩)) ?_
    cases hprogram : s.value.program with
    | none => exact .nil
    | some p =>
      have hinputs := hspares.inputs p hprogram
      refine .ofActions hinputs ?_
      rw [run_congr fun i hi => words_eq_of_outside hm (hinputs i hi)]

/-- The plan of a state that does not read a block stays as long as those of its samplers do. -/
lemma kept_statePlan {s : StateEntry} (hs : e.Unread m b s) (sampler : Option UInt32)
    (hnested : ∀ index, ∀ i ∈ e.samplersOf m s, e.Kept b (nested index i) (nested' index i)) :
    e.Kept b (e.statePlan m nested sampler s) (e.statePlan m' nested' sampler s) := by
  have hvalue : e.stateValue m' s = e.stateValue m s :=
    stateValue_eq_of_words (fun h hh => words_eq_of_outside hm (hs.reads h hh))
      (by rw [words_eq_of_outside hm hs.own])
  rw [statePlan, statePlan, hvalue]
  cases hinfo : StateTable.info? s.operation with
  | none => exact .nil
  | some info =>
    cases hv : e.stateValue m s with
    | error error => exact .fail error
    | ok v =>
      have hcandidate := param_mem_candidates hv
      have houtside : e.Outside b v.param :=
        (List.mem_cons.1 (candidates_subset s hcandidate)).elim (· ▸ hs.own) (hs.reads _)
      have hinputs : ∀ h ∈ v.inputs, e.Outside b h := fun h hh =>
        hs.reads h (inputs_subset_reads hv hh)
      have hshader : info.cls = .vertexShader ∨ info.cls = .pixelShader → ∀ stage,
          e.Kept b ((e.shaderPlan m nested stage v.param).map (.under v.inputs))
            ((e.shaderPlan m' nested' stage v.param).map (.under v.inputs)) := fun hcls stage =>
        .under hinputs <| kept_shaderPlan hm stage houtside (hs.shaders _ hcandidate)
          fun index shader hlookup i hi => by
            obtain ⟨c, hc, hi⟩ := List.mem_flatMap.1 hi
            exact hnested index i (mem_samplersOf_of_shader hinfo hcls hcandidate hlookup hc hi)
      dsimp only
      rw [valuePlan, valuePlan]
      split
      · exact hshader (.inl ‹_›) _
      · exact hshader (.inr ‹_›) _
      · exact hnested _ _ (mem_samplersOf_of_sampler hinfo ‹_› hcandidate)
      · refine .ofActions hinputs ?_
        simp only [plainActions, texture?, object?_eq_of_outside hm houtside]

end

/-! ### States that are not found to read a root -/

/-- Nothing in a block is part of a root, and the values of states are not in it. -/
structure Hides (e : LinkedEffect) (top : Handle) (b : Nat) : Prop where
  belongs : ∀ h, e.belongsTo top h = false → e.Outside b h
  own : ∀ s ∈ e.states, e.Outside b s.param
  members : e.MembersShare

section

variable {top : Handle}

lemma belongsTo_of_inputsRead {p : BoundProgram} (hp : e.inputsRead top p.inputs = false)
    {h : Handle} (hh : h ∈ p.handles) : e.belongsTo top h = false := by
  obtain ⟨c, hc⟩ := BoundProgram.mem_handles.1 hh
  rw [inputsRead, List.any_eq_false] at hp
  simpa using hp _ hc

variable (hb : e.Hides top b)
include hb

lemma Hides.reads {s : StateEntry} (hs : s ∈ e.states) (hnames : e.names top s.source = false) :
    ∀ h ∈ e.reads s, e.Outside b h := by
  rw [LinkedEffect.reads]
  cases hsource : s.source with
  | constant => simpa using hb.own s hs
  | parameter h =>
    simp only [hsource, names] at hnames
    simpa using hb.belongs h hnames
  | expression p =>
    simp only [hsource, names] at hnames
    exact fun h hh => hb.belongs h (belongsTo_of_inputsRead hnames hh)
  | selector array p =>
    simp only [hsource, names, Bool.or_eq_false_iff] at hnames
    intro h hh
    rcases List.mem_append.1 hh with hh | hh
    · rcases List.mem_cons.1 hh with rfl | hh
      · exact hb.belongs h hnames.1
      · exact hb.belongs h (belongsTo_of_inputsRead hnames.2 hh)
    · -- The elements of an array are in its block.
      cases hp : e.tree.node? array with
      | none => simp [hp] at hh
      | some q =>
        rw [Outside, hb.members array q hp h (by simpa [hp] using hh)]
        exact hb.belongs array hnames.1

lemma Hides.spares {reads : StateEntry → Bool} {s : Shader}
    (h : e.shaderReads top reads s = false) : e.Spares b s := by
  rw [shaderReads, Bool.or_eq_false_iff, List.any_eq_false] at h
  refine ⟨fun c hc i hfind => hb.belongs i ?_, fun p hprogram i hi => hb.belongs i ?_⟩
  · have hconstant := h.1 c hc
    simp only [hfind, Bool.not_eq_true, Bool.or_eq_false_iff] at hconstant
    exact hconstant.1
  · have hinputs := h.2
    simp only [hprogram] at hinputs
    exact belongsTo_of_inputsRead hinputs hi

/-- A state that is not found to read a root reads nothing in its block. -/
lemma Hides.unread {s : StateEntry} (hs : s ∈ e.states) {depth : Nat}
    (h : e.stateReads m top (depth + 1) s = false) : e.Unread m b s := by
  rw [stateReads, Bool.or_eq_false_iff, List.any_eq_false] at h
  refine ⟨hb.own s hs, hb.reads hs h.1, fun i hi shader hshader => ?_⟩
  have hcandidate := h.2 i hi
  simp only [hshader, Bool.not_eq_true, Bool.or_eq_false_iff] at hcandidate
  exact hb.spares hcandidate.2

end

/-- The samplers that a constant names have no state that the walk over a shader would find. -/
lemma reads_eq_false_of_shaderReads {top : Handle} {reads : StateEntry → Bool} {s : Shader}
    (h : e.shaderReads top reads s = false) {i : Handle} (hi : i ∈ e.shaderSamplers s)
    {s' : StateEntry} (hs' : s' ∈ e.statesAt i) : reads s' = false := by
  obtain ⟨c, hc, hi⟩ := List.mem_flatMap.1 hi
  rw [shaderReads, Bool.or_eq_false_iff, List.any_eq_false] at h
  have hconstant := h.1 c hc
  rw [constantSamplers] at hi
  split at hi
  · cases hi
  · split at hi
    · cases hi
    · rename_i p hfind
      split at hi
      · rename_i hset
        rw [namedSamplers] at hi
        split at hi
        · cases hi
        · rename_i q hq
          split at hi
          · have hmem := List.mem_of_mem_take hi
            simp only [hfind, hset, hq, beq_self_eq_true, Bool.true_and, Bool.not_eq_true,
              Bool.or_eq_false_iff, List.any_eq_false] at hconstant
            simpa using hconstant.2 i hmem s' hs'
          · cases hi
      · cases hi

/-- What a state leads on to is not found to read a root either, one level less deep. -/
lemma stateReads_of_mem_samplersOf {top : Handle} {depth : Nat} {s : StateEntry}
    (h : e.stateReads m top (depth + 1) s = false) {i : Handle} (hi : i ∈ e.samplersOf m s)
    {s' : StateEntry} (hs' : s' ∈ e.statesAt i) : e.stateReads m top depth s' = false := by
  rw [stateReads, Bool.or_eq_false_iff, List.any_eq_false] at h
  have hcandidates := h.2
  simp only [Bool.not_eq_true, Bool.or_eq_false_iff, List.any_eq_false] at hcandidates
  obtain hi | ⟨h, hh, shader, hlookup, hi⟩ := candidate_of_mem_samplersOf hi
  · simpa using (hcandidates i hi).1 s' hs'
  · have hshader := (hcandidates h hh).2
    simp only [hlookup] at hshader
    exact reads_eq_false_of_shaderReads hshader hi hs'

/-- No state of a technique that does not use a parameter is found to read its root. -/
lemma stateReads_eq_false_of_isUsed {h : Handle} {t : Nat} (hused : e.isUsed m h t = false)
    {p : Parameter} (hp : e.tree.node? h = some p) {technique : Technique}
    (ht : e.techniques[t]? = some technique) {pass : Pass} (hpass : pass ∈ technique.passes)
    {s : StateEntry} (hs : s ∈ pass.states) : e.stateReads m p.top usageDepth s = false := by
  simp only [isUsed, hp, ht, List.any_eq_false, Bool.not_eq_true] at hused
  exact hused s (List.mem_flatMap.2 ⟨pass, hpass, hs⟩)

lemma mem_states_of_mem_statesAt {h : Handle} {s : StateEntry} (hs : s ∈ e.statesAt h) :
    s ∈ e.states := by
  obtain ⟨p, hp, hmem⟩ := mem_statesAt.1 hs
  obtain ⟨place, hplace⟩ := Link.exists_stateAt_of_mem_node
    (l := ⟨e.tree, e.techniques, .empty, 0⟩) hp hmem
  exact mem_states_of_stateAt? hplace

/-- The plans of states that are not found to read a root stay, if no states lie deeper than the
walk goes. -/
theorem kept_states {top : Handle} (hb : e.Hides top b)
    (hm : ∀ id, id ≠ b → m'.block id = m.block id) {states : List StateEntry}
    (hstates : states ⊆ e.states) {levels : Nat}
    (hreads : ∀ s ∈ states, e.stateReads m top levels s = false)
    (hbelow : e.statesBelow m levels states = []) (depth : Nat) (sampler : Option UInt32) :
    e.Kept b (states.flatMap (e.statePlan m (e.samplerPlan m depth) sampler))
      (states.flatMap (e.statePlan m' (e.samplerPlan m' depth) sampler)) := by
  induction levels generalizing states depth sampler with
  | zero =>
    rw [show states = [] from hbelow]
    exact .nil
  | succ levels ih =>
    refine .flatMap fun s hs => ?_
    have hread := hreads s hs
    refine kept_statePlan hm (hb.unread (hstates hs) hread) sampler fun index i hi => ?_
    cases depth with
    | zero => exact .nil
    | succ depth =>
      rw [samplerPlan_succ, samplerPlan_succ]
      refine ih (fun _ => mem_states_of_mem_statesAt)
        (fun s' hs' => stateReads_of_mem_samplersOf hread hi hs') ?_ depth _
      exact List.subset_nil.1 (hbelow ▸ statesBelow_subset_succ hs hi levels)

end ShaderEffect.LinkedEffect
