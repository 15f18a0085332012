import ShaderEffect.Proofs.Plan.Build

/-!
# Applying states follows the plan

A step follows a plan (`LinkedEffect.Follows`) if it does what is due of it, up to the first
failure, and writes computed blocks only. Every step of applying states follows the plan for it, so
a pass makes the calls its plan has due.
-/

namespace ShaderEffect

namespace LinkedEffect

variable (e : LinkedEffect)

/-- There is a memory like the one planned for, with the effect's counter. -/
structure Ready (m : Memory) (w : Work) : Prop where
  alike : e.Alike m w.memory
  counter : e.counter < w.memory.counters.size

/-- A step did what is due of a plan. -/
structure Follows (m : Memory) (mode : Mode) (plan : Plan) (w : Work) (o : Outcome Unit) :
    Prop where
  calls : o.calls = (e.due m mode plan).flatMap Action.calls
  answer : o.answer = plan.answer
  work : o.work.withMemory w.memory = w.assignAll (e.due m mode plan)
  evolves : Memory.Evolves e.counter e.Computed w.memory o.work.memory
  alike : e.Alike w.memory o.work.memory

variable {e} {m : Memory} {mode : Mode} {w : Work}

lemma Follows.ready {plan : Plan} {o : Outcome Unit} (h : e.Follows m mode plan w o)
    (hw : e.Ready m w) : e.Ready m o.work where
  alike := hw.alike.trans h.alike
  counter := h.evolves.size_counters ▸ hw.counter

/-! ### Sequences -/

lemma follows_done : e.Follows m mode [] w (Step.done () w) :=
  ⟨rfl, rfl, rfl, .refl .., .refl _⟩

lemma follows_fail {error : EvaluationError} {w' : Work}
    (hmemory : w'.withMemory w.memory = w)
    (hevolves : Memory.Evolves e.counter e.Computed w.memory w'.memory)
    (halike : e.Alike w.memory w'.memory) :
    e.Follows m mode [.fail error] w ⟨[], w', .error error⟩ :=
  ⟨rfl, rfl, hmemory, hevolves, halike⟩

/-- A step that starts later, after computed blocks were written, follows the same plan. -/
lemma Follows.of_memory {plan : Plan} {memory : Memory} {o : Outcome Unit}
    (h : e.Follows m mode plan (w.withMemory memory) o)
    (hevolves : Memory.Evolves e.counter e.Computed w.memory memory)
    (halike : e.Alike w.memory memory) : e.Follows m mode plan w o where
  calls := h.calls
  answer := h.answer
  work := by
    have hwork := congrArg (Work.withMemory · w.memory) h.work
    simp only [Work.assignAll_withMemory, Work.withMemory_withMemory] at hwork
    rw [hwork, ← Work.assignAll_withMemory]
    rfl
  evolves := (hevolves.trans h.evolves).mono fun _ => or_self_iff.1
  alike := halike.trans h.alike

lemma follows_andThen {plan rest : Plan} {first : Step Unit} {next : Unit → Step Unit}
    (hw : e.Ready m w) (hfirst : e.Follows m mode plan w (first w))
    (hnext : ∀ w', e.Ready m w' → e.Follows m mode rest w' (next () w')) :
    e.Follows m mode (plan ++ rest) w (Step.andThen first next w) := by
  cases hanswer : plan.answer with
  | error error =>
    have houtcome : Step.andThen first next w =
        ⟨(first w).calls, (first w).work, .error error⟩ := by
      simp only [Step.andThen, hfirst.answer.trans hanswer]
    have hdue : e.due m mode (plan ++ rest) = e.due m mode plan :=
      due_append_of_error hanswer rest
    rw [houtcome]
    refine ⟨?_, ?_, ?_, hfirst.evolves, hfirst.alike⟩
    · rw [hdue]
      exact hfirst.calls
    · exact (Plan.answer_append_of_error hanswer rest).symm
    · rw [hdue]
      exact hfirst.work
  | ok =>
    have hsecond := hnext _ (hfirst.ready hw)
    have houtcome : Step.andThen first next w =
        ⟨(first w).calls ++ (next () (first w).work).calls, (next () (first w).work).work,
          (next () (first w).work).answer⟩ := by
      simp only [Step.andThen, hfirst.answer.trans hanswer]
    have hdue : e.due m mode (plan ++ rest) = e.due m mode plan ++ e.due m mode rest :=
      due_append_of_ok hanswer rest
    rw [houtcome]
    refine ⟨?_, ?_, ?_, ?_, hfirst.alike.trans hsecond.alike⟩
    · rw [hdue, List.flatMap_append, hfirst.calls, hsecond.calls]
    · rw [Plan.answer_append_of_ok hanswer, hsecond.answer]
    · -- The memory that the first step leaves does not matter to what the second one assigns.
      have hwork := congrArg (Work.withMemory · w.memory) hsecond.work
      rw [Work.withMemory_withMemory, ← Work.assignAll_withMemory, hfirst.work] at hwork
      rw [hdue, Work.assignAll_append]
      exact hwork
    · exact (hfirst.evolves.trans hsecond.evolves).mono fun _ => or_self_iff.1

lemma follows_each {α : Type} {step : α → Step Unit} {plan : α → Plan} (list : List α)
    (hstep : ∀ a ∈ list, ∀ w', e.Ready m w' → e.Follows m mode (plan a) w' (step a w'))
    (hw : e.Ready m w) : e.Follows m mode (list.flatMap plan) w (Step.each step list w) := by
  induction list generalizing w with
  | nil => exact follows_done
  | cons a rest ih =>
    rw [List.flatMap_cons]
    refine follows_andThen hw (hstep a List.mem_cons_self w hw) fun w' hw' => ?_
    exact ih (fun b hb => hstep b (List.mem_cons_of_mem _ hb)) hw'

lemma Follows.under {plan : Plan} {inputs : List Handle} {o : Outcome Unit}
    (h : e.Follows m (e.modeUnder m mode inputs) plan w o) :
    e.Follows m mode (plan.map (.under inputs)) w o where
  calls := by rw [due_map_under, h.calls]
  answer := by rw [Plan.answer_map_under, h.answer]
  work := by rw [due_map_under, h.work]
  evolves := h.evolves
  alike := h.alike

/-- Some actions are taken if they are due. -/
lemma follows_ofActions {inputs : List Handle} {actions : List Action} {step : Step Unit}
    (hstep : (e.modeUnder m mode inputs).full = true →
      step w = ⟨actions.flatMap Action.calls, w.assignAll actions, .ok ()⟩) :
    e.Follows m mode (.ofActions inputs actions) w
      ((if (e.modeUnder m mode inputs).full then step else pure ()) w) := by
  have hdue := due_ofActions (e := e) (m := m) mode inputs actions
  split
  case isTrue hfull =>
    rw [if_pos hfull] at hdue
    rw [hstep hfull]
    refine ⟨?_, (Plan.answer_ofActions ..).symm, ?_, ?_, ?_⟩
    · rw [hdue]
    · rw [hdue, ← Work.assignAll_withMemory]
      rfl
    · rw [Work.memory_assignAll]
      exact .refl ..
    · rw [Work.memory_assignAll]
      exact .refl _
  case isFalse hfull =>
    rw [if_neg hfull] at hdue
    refine ⟨?_, (Plan.answer_ofActions ..).symm, ?_, .refl .., .refl _⟩
    · rw [hdue]
      rfl
    · rw [hdue]
      rfl

/-! ### Values -/

/-- To store what a program computed changes the words of the state's own block only. -/
lemma storeResult_eq (memory : Memory) (h : Handle) (result : Array Single) :
    e.storeResult memory h result =
      if (e.tree.node? h).isSome then e.writeWords memory h (e.resultWords h result)
      else memory := by
  rw [storeResult]
  cases hp : e.tree.node? h with
  | none => rfl
  | some p =>
    have hwords : e.resultWords h result = fun words => words.mapIdx fun i _ =>
        Scalar.toWord p.decl.type (.float ((result[i]?).getD .zero)) := by
      funext words
      simp only [resultWords, hp]
    simp [hwords]

lemma length_resultWords (h : Handle) (result : Array Single) (words : List UInt32) :
    (e.resultWords h result words).length = words.length := by
  rw [resultWords]
  split <;> simp

lemma resultWords_eq_of_length {h : Handle} {result : Array Single} {words words' : List UInt32}
    (hp : (e.tree.node? h).isSome) (hlen : words.length = words'.length) :
    e.resultWords h result words = e.resultWords h result words' := by
  rw [resultWords, resultWords]
  split
  case h_1 =>
    refine List.ext_getElem (by simpa using hlen) fun i _ _ => ?_
    simp
  case h_2 hnone => simp [hnone] at hp

/-- What a result leaves of the words of a parameter depends on how many these are. -/
lemma resultWords_words_congr {m' : Memory} {h : Handle} {result : Array Single}
    (hlen : (e.words m' h).length = (e.words m h).length) :
    e.resultWords h result (e.words m' h) = e.resultWords h result (e.words m h) := by
  cases hp : e.tree.node? h with
  | none => simp [words, hp]
  | some p => exact resultWords_eq_of_length (by simp [hp]) hlen

/-- Storing the result of an expression, which leaves its words to be read back. -/
lemma storeResult_spec {s : StateEntry} {p : BoundProgram} (hs : e.Sound s)
    (hsource : s.source = .expression p) (hw : e.Ready m w) :
    Memory.Evolves e.counter e.Computed w.memory
        (e.storeResult w.memory s.param (e.run w.memory p)) ∧
      e.Alike w.memory (e.storeResult w.memory s.param (e.run w.memory p)) ∧
      e.words (e.storeResult w.memory s.param (e.run w.memory p)) s.param =
        e.resultWords s.param (e.run m p) (e.words m s.param) := by
  have hstable : ∀ h ∈ p.handles, e.Stable h := fun h hmem =>
    hs.stable h (by simpa [reads, hsource] using hmem)
  rw [storeResult_eq, ← hw.alike.run hstable]
  split
  case isTrue =>
    have hwrites := writes_writeWords (h := s.param)
      (f := e.resultWords s.param (e.run w.memory p)) hw.counter
    have hevolves : Memory.Evolves e.counter e.Computed w.memory (e.writeWords w.memory s.param
        (e.resultWords s.param (e.run w.memory p))) :=
      hwrites.toEvolves.mono fun id hid =>
        hs.computed p hsource id (e.blocksOf_singleton.1 hid)
    refine ⟨hevolves, ⟨⟨fun id _ => ?_, fun id _ => hevolves.size_words id⟩,
      fun id _ hid => hevolves.block_eq hid⟩, ?_⟩
    · exact objects_block_writeWords _ id
    · rw [words_writeWords (length_resultWords _ _)]
      exact resultWords_words_congr (hw.alike.length_words _)
  case isFalse hp =>
    refine ⟨.refl .., .refl _, ?_⟩
    have hnone : e.tree.node? s.param = none := by simpa using hp
    simp [words, resultWords, hnone]

/-- What resolving a state comes to: an error if the state has no value, else the value, stored if
it is due. -/
inductive Resolves (e : LinkedEffect) (m : Memory) (mode : Mode) (w : Work) (s : StateEntry)
    (o : Outcome Resolved) : Prop
  | error {error : EvaluationError} (hvalue : e.stateValue m s = .error error)
      (ho : o = ⟨[], w, .error error⟩)
  | ok {v : StateValue} {memory : Memory} (hvalue : e.stateValue m s = .ok v)
      (ho : o = ⟨[], w.withMemory memory, .ok ⟨v.param, e.anyDirty m v.inputs mode.since⟩⟩)
      (hevolves : Memory.Evolves e.counter e.Computed w.memory memory)
      (halike : e.Alike w.memory memory)
      (hwords : (e.modeUnder m mode v.inputs).full = true → e.words memory v.param = v.words)

/-- What an expression computes is stored if one of its inputs is dirty. -/
lemma resolves_expression {s : StateEntry} {p : BoundProgram} (hs : e.Sound s) (hw : e.Ready m w)
    (hsource : s.source = .expression p) : e.Resolves m mode w s (e.resolve mode s w) := by
  have hstable : ∀ h ∈ p.handles, e.Stable h := fun h hh => hs.stable h (by simpa [reads, hsource])
  have hdirty : e.inputsDirty w.memory p mode.since = e.anyDirty m p.handles mode.since := by
    rw [← anyDirty_handles, hw.alike.anyDirty hstable]
  obtain ⟨hevolves, halike, hwords⟩ := storeResult_spec hs hsource hw
  have hvalue : e.stateValue m s =
      .ok ⟨s.param, e.resultWords s.param (e.run m p) (e.words m s.param), p.handles⟩ := by
    simp only [stateValue, hsource]
  have houtcome : e.resolve mode s w = ⟨[], w.withMemory
      (if (e.modeUnder m mode p.handles).full then
        e.storeResult w.memory s.param (e.run w.memory p) else w.memory),
      .ok ⟨s.param, e.anyDirty m p.handles mode.since⟩⟩ := by
    simp only [resolve, hsource, hdirty]
    rfl
  by_cases hfull : (e.modeUnder m mode p.handles).full = true
  · rw [if_pos hfull] at houtcome
    exact .ok hvalue houtcome hevolves halike fun _ => hwords
  · rw [if_neg hfull] at houtcome
    exact .ok hvalue houtcome (.refl ..) (.refl _) fun h => absurd h hfull

/-- The element that a selector chooses depends on the inputs of its program only. -/
lemma resolves_selector {s : StateEntry} {array : Handle} {p : BoundProgram} (hs : e.Sound s)
    (hw : e.Ready m w) (hsource : s.source = .selector array p) :
    e.Resolves m mode w s (e.resolve mode s w) := by
  have hstable := hs.stable
  simp only [reads, hsource] at hstable
  have hp : ∀ h ∈ p.handles, e.Stable h := fun h hmem =>
    hstable h (List.mem_append_left _ (List.mem_cons_of_mem _ hmem))
  have harray : e.Stable array := hstable array (List.mem_append_left _ List.mem_cons_self)
  have hdirty : (e.inputsDirty w.memory p mode.since || e.isDirty w.memory array mode.since) =
      e.anyDirty m (p.handles ++ [array]) mode.since := by
    rw [anyDirty_append, ← anyDirty_handles, hw.alike.anyDirty hp, hw.alike.isDirty harray]
    simp [anyDirty]
  cases hselect : e.tree.select array (e.runFirst m p) with
  | error error =>
    have hvalue : e.stateValue m s = .error error := by
      simp only [stateValue, hsource, hselect]
      rfl
    have houtcome : e.resolve mode s w = ⟨[], w, .error error⟩ := by
      simp only [resolve, hsource, hw.alike.runFirst hp, hselect]
      rfl
    exact .error hvalue houtcome
  | ok h =>
    have hvalue : e.stateValue m s = .ok ⟨h, e.words m h, p.handles ++ [array]⟩ := by
      simp only [stateValue, hsource, hselect]
      rfl
    have houtcome : e.resolve mode s w = ⟨[], w.withMemory w.memory,
        .ok ⟨h, e.anyDirty m (p.handles ++ [array]) mode.since⟩⟩ := by
      simp only [resolve, hsource, hw.alike.runFirst hp, hselect, hdirty]
      rfl
    refine .ok hvalue houtcome (.refl ..) (.refl _) fun _ => hw.alike.words (hstable h ?_)
    exact List.mem_append_right _ (mem_members_of_select hselect)

lemma resolves_resolve {s : StateEntry} (hs : e.Sound s) (hw : e.Ready m w) :
    e.Resolves m mode w s (e.resolve mode s w) := by
  have hstable := hs.stable
  rw [reads] at hstable
  cases hsource : s.source with
  | constant =>
    simp only [hsource] at hstable
    have hvalue : e.stateValue m s = .ok ⟨s.param, e.words m s.param, []⟩ := by
      simp only [stateValue, hsource]
    have houtcome : e.resolve mode s w =
        ⟨[], w.withMemory w.memory, .ok ⟨s.param, e.anyDirty m [] mode.since⟩⟩ := by
      simp only [resolve, hsource]
      rfl
    exact .ok hvalue houtcome (.refl ..) (.refl _) fun _ =>
      hw.alike.words (hstable _ List.mem_cons_self)
  | parameter h =>
    simp only [hsource] at hstable
    have hh := hstable h List.mem_cons_self
    have hvalue : e.stateValue m s = .ok ⟨h, e.words m h, [h]⟩ := by
      simp only [stateValue, hsource]
    have houtcome : e.resolve mode s w =
        ⟨[], w.withMemory w.memory, .ok ⟨h, e.anyDirty m [h] mode.since⟩⟩ := by
      simp only [resolve, hsource, hw.alike.isDirty hh, anyDirty, List.any_cons, List.any_nil,
        Bool.or_false, Work.withMemory_memory]
    exact .ok hvalue houtcome (.refl ..) (.refl _) fun _ => hw.alike.words hh
  | expression p => exact resolves_expression hs hw hsource
  | selector array p => exact resolves_selector hs hw hsource

/-! ### Shaders -/

variable {nested : SamplerStep} {nestedPlan : SamplerPlan}

/-- Samplers are applied as planned. -/
def NestedFollows (e : LinkedEffect) (m : Memory) (nested : SamplerStep)
    (nestedPlan : SamplerPlan) : Prop :=
  ∀ mode index h w, e.Ready m w → e.Follows m mode (nestedPlan index h) w (nested mode index h w)

lemma get_bind {α : Type} (next : Work → Step α) (w : Work) : (Step.get >>= next) w = next w w :=
  rfl

lemma flatMap_calls_map_call (calls : List DeviceCall) :
    (calls.map Action.call).flatMap Action.calls = calls := by
  simp [List.flatMap_map, Action.calls]

lemma assignAll_map_call (w : Work) (calls : List DeviceCall) :
    w.assignAll (calls.map .call) = w := by
  induction calls with
  | nil => rfl
  | cons c rest ih => exact ih

lemma follows_emit {inputs : List Handle} {calls others : List DeviceCall}
    (hcalls : calls = others) :
    e.Follows m mode (.ofActions inputs (others.map .call)) w
      ((if (e.modeUnder m mode inputs).full then Step.emit calls else pure ()) w) := by
  have hstep : Step.emit calls w = ⟨(others.map Action.call).flatMap Action.calls,
      w.assignAll (others.map .call), .ok ()⟩ := by
    rw [Step.emit, hcalls, flatMap_calls_map_call, assignAll_map_call]
  exact follows_ofActions fun _ => hstep

lemma follows_applySamplers (hnested : e.NestedFollows m nested nestedPlan) (stage : Stage)
    (c : Constant) (h : Handle) (hw : e.Ready m w) :
    e.Follows m mode (e.samplersPlan nestedPlan stage c h) w
      (e.applySamplers nested mode stage c h w) := by
  rw [samplersPlan, applySamplers]
  cases e.tree.node? h with
  | none => exact follows_done
  | some p =>
    by_cases hsampler : p.decl.type.isSampler = true
    · simp only [if_pos hsampler]
      exact follows_each _ (fun (s, k) _ w' hw' => hnested mode _ _ w' hw') hw
    · simp only [if_neg hsampler]
      exact follows_done

lemma follows_applyConstant (hsettled : e.Settled) (hnested : e.NestedFollows m nested nestedPlan)
    (stage : Stage) (c : Constant) (hw : e.Ready m w) :
    e.Follows m mode (e.constantPlan m nestedPlan stage c) w
      (e.applyConstant nested mode stage c w) := by
  rw [constantPlan, applyConstant]
  by_cases hskip : e.skip.contains c.name = true
  · simp only [if_pos hskip]
    exact follows_done
  · simp only [if_neg hskip]
    cases hfind : e.tree.find? none c.name with
    | none => exact follows_done
    | some h =>
      have hh : e.Stable h := hsettled.find _ _ hfind
      have hfull : (mode.full || e.isDirty w.memory h mode.since) =
          (e.modeUnder m mode [h]).full := by
        simp only [modeUnder, anyDirty, List.any_cons, List.any_nil, Bool.or_false,
          hw.alike.isDirty hh]
      simp only [get_bind, hfull]
      by_cases hset : c.set = .sampler
      · simp only [if_pos hset]
        exact (follows_applySamplers hnested stage c h hw).under
      · simp only [if_neg hset]
        exact follows_emit (upload_congr (hw.alike.words hh))

lemma follows_applyProgram (hsettled : e.Settled) (stage : Stage) (p : Program)
    (hw : e.Ready m w) :
    e.Follows m mode (e.programPlan m stage p) w (e.applyProgram mode stage p w) := by
  have hstable : ∀ h ∈ (e.boundProgram p).handles, e.Stable h := fun h hmem => by
    obtain ⟨c, hc⟩ := BoundProgram.mem_handles.1 hmem
    obtain ⟨c', -, hc'⟩ := List.mem_map.1 hc
    exact hsettled.find _ _ (congrArg Prod.snd hc')
  have hfull : (mode.full || e.inputsDirty w.memory (e.boundProgram p) mode.since) =
      (e.modeUnder m mode (e.boundProgram p).handles).full := by
    rw [← anyDirty_handles, hw.alike.anyDirty hstable, modeUnder]
  have hrun : resultCalls stage p (e.run w.memory (e.boundProgram p)) =
      resultCalls stage p (e.run m (e.boundProgram p)) := by
    rw [hw.alike.run hstable]
  have hstep : e.Follows m mode (e.programPlan m stage p) w
      ((if (e.modeUnder m mode (e.boundProgram p).handles).full then
        Step.emit (resultCalls stage p (e.run w.memory (e.boundProgram p))) else pure ()) w) :=
    follows_emit hrun
  rw [← hfull] at hstep
  exact hstep

/-- A shader is brought its constants in order, then what its program computes. -/
lemma follows_applyConstants (hsettled : e.Settled)
    (hnested : e.NestedFollows m nested nestedPlan) (s : Shader) (hw : e.Ready m w) :
    e.Follows m mode (e.constantsPlan m nestedPlan s) w (e.applyConstants nested mode s w) := by
  refine follows_andThen hw ?_ fun w' hw' => ?_
  · exact follows_each _
      (fun c _ w' hw' => follows_applyConstant hsettled hnested s.stage c hw') hw
  · cases s.program with
    | none => exact follows_done
    | some p => exact follows_applyProgram hsettled s.stage p hw'

/-- What a shader leads to is due whenever the shader itself is. -/
lemma follows_applyShader (hsettled : e.Settled) (hnested : e.NestedFollows m nested nestedPlan)
    (stage : Stage) (inputs : List Handle) (h : Handle) (hw : e.Ready m w) :
    e.Follows m mode ((e.shaderPlan m nestedPlan stage h).map (.under inputs)) w
      (e.applyShader nested mode stage (e.modeUnder m mode inputs).full h w) := by
  refine Follows.under ?_
  have hself : (e.modeUnder m (e.modeUnder m mode inputs) []).full =
      (e.modeUnder m mode inputs).full := by
    simp [modeUnder, anyDirty]
  have hset : e.Follows m (e.modeUnder m mode inputs)
      (.ofActions [] ([.shader stage (e.shader? m h)].map .call)) w
      ((if (e.modeUnder m (e.modeUnder m mode inputs) []).full then
        Step.emit [.shader stage (e.shader? m h)] else pure ()) w) :=
    follows_emit rfl
  rw [hself] at hset
  have hsteps : e.applyShader nested mode stage (e.modeUnder m mode inputs).full h w =
      Step.andThen
        (if (e.modeUnder m mode inputs).full then Step.emit [.shader stage (e.shader? m h)]
          else pure ())
        (fun _ => (e.shader? m h).elim (.done ()) fun s => e.applyConstants nested
          { mode with full := (e.modeUnder m mode inputs).full } s.value) w := by
    rw [applyShader, get_bind, hw.alike.shader?]
    cases (e.modeUnder m mode inputs).full <;> cases e.shader? m h <;> rfl
  rw [hsteps]
  refine follows_andThen hw hset fun w' hw' => ?_
  cases e.shader? m h with
  | none => exact follows_done
  | some s => exact follows_applyConstants hsettled hnested s.value hw'

/-! ### States -/

/-- A state that does not lead on takes its actions. -/
lemma perform_eq_of_not_leadsOn {sampler : Option UInt32} {info : StateInfo} {index : UInt32}
    {h : Handle} {changed : Bool} (inputs : List Handle) (hcls : info.cls.leadsOn = false) :
    e.perform nested mode sampler info index ⟨h, changed⟩ w =
      let actions := e.plainActions w.memory sampler info index ⟨h, e.words w.memory h, inputs⟩
      ⟨actions.flatMap Action.calls, w.assignAll actions, .ok ()⟩ := by
  obtain ⟨cls, op, name⟩ := info
  cases cls with
  | vertexShader | pixelShader | sampler => cases hcls
  | shaderConstant =>
    simp only [plainActions, flatMap_calls_map_call, assignAll_map_call]
    rfl
  | _ => rfl

lemma plainActions_congr {sampler : Option UInt32} {info : StateInfo} {index : UInt32}
    {v : StateValue} (halike : e.Alike m w.memory) (hwords : e.words w.memory v.param = v.words) :
    e.plainActions w.memory sampler info index ⟨v.param, e.words w.memory v.param, v.inputs⟩ =
      e.plainActions m sampler info index v := by
  simp only [plainActions, hwords, halike.texture?]

lemma follows_perform (hsettled : e.Settled) (hnested : e.NestedFollows m nested nestedPlan)
    (sampler : Option UInt32) (info : StateInfo) (index : UInt32) (v : StateValue)
    (hw : e.Ready m w)
    (hwords : (e.modeUnder m mode v.inputs).full = true → e.words w.memory v.param = v.words) :
    e.Follows m mode (e.valuePlan m nestedPlan sampler info index v) w
      ((if mode.full || e.anyDirty m v.inputs mode.since || info.cls.leadsOn then
        e.perform nested mode sampler info index ⟨v.param, e.anyDirty m v.inputs mode.since⟩
        else pure ()) w) := by
  have hfull : (mode.full || e.anyDirty m v.inputs mode.since) =
      (e.modeUnder m mode v.inputs).full := rfl
  have hplain : info.cls.leadsOn = false → e.Follows m mode
      (.ofActions v.inputs (e.plainActions m sampler info index v)) w
      ((if mode.full || e.anyDirty m v.inputs mode.since || info.cls.leadsOn then
        e.perform nested mode sampler info index ⟨v.param, e.anyDirty m v.inputs mode.since⟩
        else pure ()) w) := by
    intro hcls
    rw [hfull, hcls, Bool.or_false]
    refine follows_ofActions fun hdue => ?_
    rw [perform_eq_of_not_leadsOn v.inputs hcls, plainActions_congr hw.alike (hwords hdue)]
  obtain ⟨cls, op, name⟩ := info
  cases cls with
  | vertexShader | pixelShader =>
    simp only [StateClass.leadsOn, Bool.or_true, if_true]
    exact follows_applyShader hsettled hnested _ v.inputs v.param hw
  | sampler =>
    simp only [StateClass.leadsOn, Bool.or_true, if_true]
    exact hnested mode index v.param w hw
  | _ => exact hplain rfl

lemma follows_applyState (hsettled : e.Settled) (hnested : e.NestedFollows m nested nestedPlan)
    (sampler : Option UInt32) {s : StateEntry} (hs : e.Sound s) (hw : e.Ready m w) :
    e.Follows m mode (e.statePlan m nestedPlan sampler s) w
      (e.applyState nested mode sampler s w) := by
  rw [statePlan, applyState]
  cases StateTable.info? s.operation with
  | none => exact follows_done
  | some info =>
    simp only [bind, Step.andThen]
    have hresolves : e.Resolves m mode w s (e.resolve mode s w) := resolves_resolve hs hw
    cases hresolves with
    | error hvalue ho =>
      rw [ho, hvalue]
      exact follows_fail rfl (.refl ..) (.refl _)
    | @ok v memory hvalue ho hevolves halike hwords =>
      rw [ho, hvalue]
      have hready : e.Ready m (w.withMemory memory) :=
        ⟨hw.alike.trans halike, hevolves.size_counters ▸ hw.counter⟩
      exact (follows_perform hsettled hnested sampler info s.index v hready hwords).of_memory
        hevolves halike

/-- Samplers are applied as planned, however deep they lead on. -/
lemma nestedFollows_applySampler (hsettled : e.Settled) (depth : Nat) :
    e.NestedFollows m (e.applySampler depth) (e.samplerPlan m depth) := by
  induction depth with
  | zero => exact fun _ _ _ _ _ => follows_done
  | succ depth ih =>
    intro mode index h w hw
    rw [samplerPlan, applySampler]
    cases hp : e.tree.node? h with
    | none => exact follows_done
    | some p =>
      exact follows_each _ (fun s hs w' hw' =>
        follows_applyState hsettled ih (some index) (hsettled.nodes h p hp s hs) hw') hw

/-- A state of a pass is applied as planned. -/
theorem follows_applyPassState (hsettled : e.Settled) {s : StateEntry} (hs : e.Sound s)
    (hw : e.Ready m w) :
    e.Follows m mode (e.passStatePlan m s) w (e.applyPassState mode s w) :=
  follows_applyState hsettled (nestedFollows_applySampler hsettled _) none hs hw

end LinkedEffect

end ShaderEffect
