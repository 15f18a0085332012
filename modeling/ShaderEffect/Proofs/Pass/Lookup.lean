import ShaderEffect.Proofs.Host.Bounded
import ShaderEffect.Proofs.Link.Values

/-!
# Looking nodes up while passes are applied

Applying a state passes over a node that is not there. The strict steps below fail instead, on any
node and on any element of an array that they need and that is missing. In the tree of an effect
nothing is missing (`LinkedEffect.Complete`), so strict steps do what the others do, however deep
samplers lead on to samplers (`EffectState.applyPassStrict_eq`).
-/

namespace ShaderEffect

/-! ### Strict steps -/

/-- A step that may find that something is missing. What it did before stays done. -/
def StrictStep (α : Type) : Type := Step (Except CallError α)

namespace StrictStep

variable {α β : Type}

/-- A step in which nothing can be missing. -/
def sure (s : Step α) : StrictStep α := fun w => ⟨(s w).calls, (s w).work, (s w).answer.map .ok⟩

/-- Go on after a step, unless it fails or something is missing. -/
def andThen (s : StrictStep α) (next : α → StrictStep β) : StrictStep β :=
  Step.andThen s fun
    | .ok a => next a
    | .error e => Step.done (.error e)

instance : Monad StrictStep where
  pure a := sure (.done a)
  bind := andThen

/-- What was looked up, which must be there. -/
def require : Option α → StrictStep α
  | some a => sure (.done a)
  | none => Step.done (.error .badParameter)

/-- Take a step for each of some values. -/
def each (f : α → StrictStep Unit) : List α → StrictStep Unit
  | [] => sure (.done ())
  | a :: rest => andThen (f a) fun _ => each f rest

/-- Take a step, and go on even if it fails or something is missing. -/
def attempt (s : StrictStep Unit) : StrictStep Unit := fun w =>
  ⟨(s w).calls, (s w).work, .ok (.ok ())⟩

@[simp] lemma sure_bind (s : Step α) (f : α → Step β) :
    sure (s >>= f) = sure s >>= fun a => sure (f a) := by
  funext w
  show sure (Step.andThen s f) w = Step.andThen (sure s) _ w
  simp only [sure, Step.andThen]
  cases (s w).answer <;> rfl

@[simp] lemma sure_pure (a : α) : sure (pure a) = pure a := rfl

@[simp] lemma require_some_bind (a : α) (f : α → StrictStep β) :
    (require (some a) >>= f) = f a := rfl

/-- What goes on after a step need only agree on what the step can answer. -/
lemma sure_bind_congr {s : Step α} {f g : α → StrictStep β}
    (h : ∀ w a, (s w).answer = .ok a → f a = g a) : (sure s >>= f) = sure s >>= g := by
  funext w
  show Step.andThen (sure s) _ w = Step.andThen (sure s) _ w
  simp only [sure, Step.andThen]
  cases hanswer : (s w).answer with
  | error error => rfl
  | ok a =>
    dsimp only [Except.map]
    rw [h w a hanswer]

lemma sure_ite {c : Prop} [Decidable c] (s s' : Step α) :
    sure (if c then s else s') = if c then sure s else sure s' := by
  split <;> rfl

lemma each_sure {f : α → StrictStep Unit} {g : α → Step Unit} {as : List α}
    (h : ∀ a ∈ as, f a = sure (g a)) : each f as = sure (Step.each g as) := by
  induction as with
  | nil => rfl
  | cons a rest ih =>
    rw [each, h a List.mem_cons_self, ih fun b hb => h b (List.mem_cons_of_mem a hb)]
    exact (sure_bind (g a) fun _ => Step.each g rest).symm

lemma attempt_sure (s : Step Unit) : attempt (sure s) = sure s.attempt := rfl

end StrictStep

open StrictStep

/-! ### Applying states -/

namespace LinkedEffect

variable (e : LinkedEffect)

/-- Look a node up, which must be there. -/
def requireNode (h : Handle) : StrictStep Parameter := require (e.tree.node? h)

/-- The element of an array that a number selects. An element with a number in range must be
there. -/
def selectStrict (array : Handle) (x : Single) : StrictStep Handle := do
  let p ← e.requireNode array
  let error : EvaluationError := ⟨x, p.decl.name, p.decl.elements.toNat⟩
  match selectedIndex? x with
  | none => sure (.ofExcept (.error error))
  | some i =>
    if 0 ≤ i ∧ i < p.decl.elements.toNat then require p.members[i.toNat]?
    else sure (.ofExcept (.error error))

/-- Find the value of a state. The node that a result is stored in must be there. -/
def resolveStrict (mode : Mode) (s : StateEntry) : StrictStep Resolved := do
  let m := (← sure .get).memory
  match s.source with
  | .constant | .parameter _ => sure (e.resolve mode s)
  | .expression p =>
    if mode.full || e.inputsDirty m p mode.since then
      let _ ← e.requireNode s.param
      sure (e.resolve mode s)
    else sure (e.resolve mode s)
  | .selector array p =>
    let dirty := e.inputsDirty m p mode.since || e.isDirty m array mode.since
    return ⟨← e.selectStrict array (e.runFirst m p), dirty⟩

/-- How the sampler at a handle is applied to a device sampler. -/
abbrev StrictSamplerStep := Mode → UInt32 → Handle → StrictStep Unit

/-- Apply the samplers a parameter holds. -/
def applySamplersStrict (nested : StrictSamplerStep) (mode : Mode) (stage : Stage) (c : Constant)
    (h : Handle) : StrictStep Unit := do
  let p ← e.requireNode h
  if p.decl.type.isSampler then
    let first := UInt32.ofNat c.index + stage.firstSampler
    each (fun (s, k) => nested mode (first + UInt32.ofNat k) s)
      ((p.samplers h).take (max c.count 1)).zipIdx
  else pure ()

/-- Bring a shader one of its constants. There need not be a parameter of the name. -/
def applyConstantStrict (nested : StrictSamplerStep) (mode : Mode) (stage : Stage) (c : Constant) :
    StrictStep Unit :=
  if e.skip.contains c.name then pure ()
  else match e.tree.find? none c.name with
  | none => pure ()
  | some h => do
    let m := (← sure .get).memory
    let changed := mode.full || e.isDirty m h mode.since
    if c.set = .sampler then e.applySamplersStrict nested { mode with full := changed } stage c h
    else if changed then sure (.emit (e.upload m stage c h))

/-- Bring a shader its constants, then what its program computes. -/
def applyConstantsStrict (nested : StrictSamplerStep) (mode : Mode) (s : Shader) :
    StrictStep Unit := do
  each (e.applyConstantStrict nested mode s.stage) s.constants.constants
  match s.program with
  | some p => sure (e.applyProgram mode s.stage p)
  | none => pure ()

/-- Set the shader of a stage if it changed, and bring it its constants. -/
def applyShaderStrict (nested : StrictSamplerStep) (mode : Mode) (stage : Stage) (changed : Bool)
    (h : Handle) : StrictStep Unit := do
  let shader := e.shader? (← sure .get).memory h
  if changed then sure (.emit [.shader stage shader])
  match shader with
  | some s => e.applyConstantsStrict nested { mode with full := changed } s.value
  | none => pure ()

/-- Do what a state does. Only states that lead on to samplers need more than its value. -/
def performStrict (nested : StrictSamplerStep) (mode : Mode) (sampler : Option UInt32)
    (info : StateInfo) (index : UInt32) (value : Resolved) : StrictStep Unit :=
  let changed := mode.full || value.changed
  match info.cls with
  | .vertexShader => e.applyShaderStrict nested mode .vertex changed value.param
  | .pixelShader => e.applyShaderStrict nested mode .pixel changed value.param
  | .sampler => nested mode index value.param
  | _ => sure (e.perform (fun _ _ _ => .done ()) mode sampler info index value)

/-- Apply a state, given how samplers are applied. -/
def applyStateStrict (nested : StrictSamplerStep) (mode : Mode) (sampler : Option UInt32)
    (s : StateEntry) : StrictStep Unit :=
  match StateTable.info? s.operation with
  | none => pure ()
  | some info => do
    let value ← e.resolveStrict mode s
    if mode.full || value.changed || info.cls.leadsOn then
      e.performStrict nested mode sampler info s.index value

/-- Apply the states of a sampler, which must be there. Samplers lead on at most `depth` deep. -/
def applySamplerStrict : Nat → StrictSamplerStep
  | 0, _, _, _ => pure ()
  | depth + 1, mode, index, h => do
    let p ← e.requireNode h
    each (e.applyStateStrict (applySamplerStrict depth) mode (some index)) p.states

/-- Apply a state of a pass, with samplers that lead on at most `depth` deep. -/
def applyPassStateStrict (depth : Nat) (mode : Mode) (s : StateEntry) : StrictStep Unit :=
  e.applyStateStrict (e.applySamplerStrict depth) mode none s

/-- Apply a pass, with samplers that lead on at most `depth` deep. -/
def applyPassStrict (depth : Nat) (mode : Mode) (p : Pass) : StrictStep Unit := do
  sure (.change Work.restart)
  each (e.applyPassStateStrict depth mode) p.states
  sure .flush

/-- Make the calls a pass can make. A state that needs what is missing is left out by itself. -/
def recordPassStrict (depth : Nat) (p : Pass) : StrictStep Unit := do
  sure (.change Work.restart)
  each (fun s => (e.applyPassStateStrict depth ⟨true, 0⟩ s).attempt)
    (p.states.flatMap e.recordedStates)
  sure .flush

/-! ### Complete trees -/

/-- The node of a state is there, and every node that its source leads to. -/
structure Placed (s : StateEntry) : Prop where
  own : ∃ p, e.tree.node? s.param = some p
  leads : ∀ h ∈ s.source.leads, ∃ p, e.tree.node? h = some p

/-- An effect in which every node is there that states lead to. -/
structure Complete : Prop where
  found : ∀ path h, e.tree.find? none path = some h → ∃ p, e.tree.node? h = some p
  placed : ∀ s ∈ e.states, e.Placed s
  members : ∀ h p, e.tree.node? h = some p → ∀ h' ∈ p.members, ∃ p', e.tree.node? h' = some p'
  elements : ∀ h p, e.tree.node? h = some p → p.decl.elements ≠ 0 →
    p.members.length = p.decl.elements.toNat

variable {e} {nested : SamplerStep} {nested' : StrictSamplerStep} {mode : Mode} {s : StateEntry}

lemma requireNode_bind {α : Type} {h : Handle} {p : Parameter} (hp : e.tree.node? h = some p)
    (f : Parameter → StrictStep α) : (e.requireNode h >>= f) = f p := by
  rw [requireNode, hp, require_some_bind]

namespace Complete

variable (he : e.Complete)
include he

lemma selectStrict_eq {array : Handle} (harray : ∃ p, e.tree.node? array = some p) (x : Single) :
    e.selectStrict array x = sure (.ofExcept (e.tree.select array x)) := by
  obtain ⟨p, hp⟩ := harray
  rw [selectStrict, requireNode_bind hp, Tree.select, hp]
  dsimp only
  cases selectedIndex? x with
  | none => rfl
  | some i =>
    dsimp only
    split
    case isFalse => rfl
    case isTrue hi =>
      -- What is no array admits no number, and an array has as many members as it declares.
      have hne : p.decl.elements ≠ 0 := by
        intro hzero
        rw [hzero] at hi
        exact absurd hi.2 (Int.not_lt.2 hi.1)
      have hlt : i.toNat < p.members.length := by
        rw [he.elements array p hp hne]
        omega
      rw [List.getElem?_eq_getElem hlt]
      rfl

lemma resolveStrict_eq (hs : e.Placed s) : e.resolveStrict mode s = sure (e.resolve mode s) := by
  obtain ⟨p, hp⟩ := hs.own
  funext w
  cases hsource : s.source with
  | constant | parameter h => simp only [resolveStrict, hsource]; rfl
  | expression program =>
    simp only [resolveStrict, hsource, requireNode_bind hp, ite_self]
    rfl
  | selector array program =>
    have harray := hs.leads array (by rw [hsource]; exact List.mem_cons_self)
    simp only [resolveStrict, hsource, he.selectStrict_eq harray]
    rw [sure, resolve, hsource]
    dsimp only
    cases hselect : e.tree.select array (e.runFirst w.memory program) <;>
    · show Step.andThen _ _ w = _
      simp only [Step.andThen, sure, Except.map, hselect]
      rfl

/-- The value of a state is there. -/
lemma exists_of_resolve (hs : e.Placed s) {w : Work} {value : Resolved}
    (hvalue : (e.resolve mode s w).answer = .ok value) :
    ∃ p, e.tree.node? value.param = some p := by
  cases hsource : s.source with
  | constant | expression p =>
    simp only [resolve, hsource] at hvalue
    cases hvalue
    exact hs.own
  | parameter h =>
    simp only [resolve, hsource] at hvalue
    cases hvalue
    exact hs.leads h (by rw [hsource]; exact List.mem_singleton_self h)
  | selector array p =>
    simp only [resolve, hsource] at hvalue
    cases hselect : e.tree.select array (e.runFirst w.memory p) with
    | error error =>
      rw [hselect] at hvalue
      cases hvalue
    | ok h =>
      rw [hselect] at hvalue
      cases hvalue
      obtain ⟨q, hq⟩ := hs.leads array (by rw [hsource]; exact List.mem_cons_self)
      have hmem := mem_members_of_select hselect
      rw [hq] at hmem
      exact he.members array q hq h hmem

section

/-! Samplers are applied strictly as they are else, if they are there. -/
variable (hnested : ∀ mode index h, (∃ p, e.tree.node? h = some p) →
  nested' mode index h = sure (nested mode index h))
include hnested

lemma applySamplersStrict_eq {stage : Stage} {c : Constant} {h : Handle}
    (hh : ∃ p, e.tree.node? h = some p) : e.applySamplersStrict nested' mode stage c h =
      sure (e.applySamplers nested mode stage c h) := by
  obtain ⟨p, hp⟩ := hh
  rw [applySamplersStrict, requireNode_bind hp, applySamplers, hp]
  dsimp only
  split
  case isFalse => rfl
  case isTrue =>
    refine each_sure fun entry hmem => ?_
    obtain ⟨h', k⟩ := entry
    refine hnested _ _ _ ?_
    have hmem := List.mem_of_mem_take (List.fst_mem_of_mem_zipIdx hmem)
    rw [Parameter.samplers] at hmem
    split at hmem
    · exact he.members h p hp h' hmem
    · exact ⟨p, List.mem_singleton.1 hmem ▸ hp⟩

lemma applyConstantStrict_eq {stage : Stage} {c : Constant} :
    e.applyConstantStrict nested' mode stage c = sure (e.applyConstant nested mode stage c) := by
  rw [applyConstantStrict, applyConstant]
  split
  case isTrue => rfl
  case isFalse =>
    cases hfind : e.tree.find? none c.name with
    | none => rfl
    | some h =>
      dsimp only
      rw [sure_bind]
      congr 1
      funext w
      split
      · exact he.applySamplersStrict_eq hnested (he.found _ h hfind)
      · rw [sure_ite]
        rfl

lemma applyConstantsStrict_eq {shader : Shader} :
    e.applyConstantsStrict nested' mode shader = sure (e.applyConstants nested mode shader) := by
  rw [applyConstantsStrict, applyConstants, sure_bind,
    each_sure fun c _ => he.applyConstantStrict_eq hnested]
  congr 1
  funext _
  cases shader.program <;> rfl

lemma applyShaderStrict_eq {stage : Stage} {changed : Bool} {h : Handle} :
    e.applyShaderStrict nested' mode stage changed h =
      sure (e.applyShader nested mode stage changed h) := by
  rw [applyShaderStrict, applyShader, sure_bind]
  congr 1
  funext w
  have hrest : ∀ shader : Option (Shared Shader),
      (match shader with
        | some s => e.applyConstantsStrict nested' { mode with full := changed } s.value
        | none => pure ()) =
      sure (match shader with
        | some s => e.applyConstants nested { mode with full := changed } s.value
        | none => Step.done ()) := by
    rintro (_ | shader)
    · rfl
    · exact he.applyConstantsStrict_eq hnested
  dsimp only
  rw [hrest]
  cases changed with
  | true => exact (sure_bind ..).symm
  | false => rfl

lemma performStrict_eq {sampler : Option UInt32} {info : StateInfo} {index : UInt32}
    {value : Resolved} (hvalue : ∃ p, e.tree.node? value.param = some p) :
    e.performStrict nested' mode sampler info index value =
      sure (e.perform nested mode sampler info index value) := by
  cases hclass : info.cls with
  | vertexShader | pixelShader =>
    simp only [performStrict, perform, hclass, he.applyShaderStrict_eq hnested]
    rfl
  | sampler =>
    simp only [performStrict, perform, hclass]
    exact hnested _ _ _ hvalue
  | _ => simp only [performStrict, perform, hclass]

lemma applyStateStrict_eq {sampler : Option UInt32} (hs : e.Placed s) :
    e.applyStateStrict nested' mode sampler s = sure (e.applyState nested mode sampler s) := by
  rw [applyStateStrict, applyState]
  cases StateTable.info? s.operation with
  | none => rfl
  | some info =>
    dsimp only
    rw [sure_bind, he.resolveStrict_eq hs]
    refine sure_bind_congr fun w value hvalue => ?_
    rw [he.performStrict_eq hnested (he.exists_of_resolve hs hvalue), sure_ite]
    rfl

end

/-- A sampler that is there is applied strictly as it is else. -/
lemma applySamplerStrict_eq (depth : Nat) (mode : Mode) (index : UInt32) (h : Handle)
    (hh : ∃ p, e.tree.node? h = some p) :
    e.applySamplerStrict depth mode index h = sure (e.applySampler depth mode index h) := by
  induction depth generalizing mode index h with
  | zero => rfl
  | succ depth ih =>
    obtain ⟨p, hp⟩ := hh
    rw [applySamplerStrict, requireNode_bind hp, applySampler, hp]
    refine each_sure fun s hs => he.applyStateStrict_eq ih (he.placed s ?_)
    refine List.mem_append_right _ (List.mem_flatMap.2 ⟨p, ?_, hs⟩)
    exact Array.mem_toList_iff.2 (Array.mem_of_getElem? hp)

lemma placed_of_pass? {t p : Nat} {pass : Pass} (hpass : e.pass? t p = some pass) :
    ∀ s ∈ pass.states, e.Placed s := by
  obtain ⟨technique, htechnique, hmem⟩ := mem_of_pass? hpass
  exact fun s hs => he.placed s (Link.mem_allStates_of_mem_pass htechnique hmem hs)

/-- The elements of an array that stand for a state are there if the array is. -/
lemma placed_of_mem_recordedStates (hs : e.Placed s) {s' : StateEntry}
    (hs' : s' ∈ e.recordedStates s) : e.Placed s' := by
  rw [recordedStates] at hs'
  split at hs'
  · rename_i array program hsource
    split at hs'
    · rename_i p hp
      obtain ⟨h, hmem, rfl⟩ := List.mem_map.1 hs'
      refine ⟨hs.own, fun h' hh' => ?_⟩
      obtain rfl := List.mem_singleton.1 hh'
      exact he.members array p hp h' hmem
    · cases hs'
  · obtain rfl := List.mem_singleton.1 hs'
    exact hs

/-- Nothing is missing when a pass is applied, however deep samplers lead on. -/
theorem exists_applyPassStrict_eq {t p : Nat} {pass : Pass} (hpass : e.pass? t p = some pass)
    (depth : Nat) (mode : Mode) : ∃ step, e.applyPassStrict depth mode pass = sure step ∧
      (depth = e.samplerDepth → step = e.applyPass mode pass) := by
  refine ⟨do
    Step.change Work.restart
    Step.each (e.applyState (e.applySampler depth) mode none) pass.states
    Step.flush, ?_, fun hdepth => by rw [hdepth]; rfl⟩
  have heach : each (e.applyPassStateStrict depth mode) pass.states =
      sure (Step.each (e.applyState (e.applySampler depth) mode none) pass.states) :=
    each_sure fun s hs => he.applyStateStrict_eq (he.applySamplerStrict_eq depth)
      (he.placed_of_pass? hpass s hs)
  simp only [sure_bind, ← heach]
  rfl

/-- A pass of the effect is recorded strictly as it is else. -/
theorem recordPassStrict_eq {t p : Nat} {pass : Pass} (hpass : e.pass? t p = some pass) :
    e.recordPassStrict e.samplerDepth pass = sure (e.recordPass pass) := by
  have heach : each (fun s => (e.applyPassStateStrict e.samplerDepth ⟨true, 0⟩ s).attempt)
      (pass.states.flatMap e.recordedStates) =
      sure (Step.each (fun s => (e.applyPassState ⟨true, 0⟩ s).attempt)
        (pass.states.flatMap e.recordedStates)) := by
    refine each_sure fun s' hs' => ?_
    obtain ⟨s, hs, hs'⟩ := List.mem_flatMap.1 hs'
    have hplaced := he.placed_of_mem_recordedStates (he.placed_of_pass? hpass s hs) hs'
    have happly : e.applyPassStateStrict e.samplerDepth ⟨true, 0⟩ s' =
        sure (e.applyPassState ⟨true, 0⟩ s') :=
      he.applyStateStrict_eq (he.applySamplerStrict_eq e.samplerDepth) hplaced
    rw [happly, attempt_sure]
  rw [recordPassStrict, heach, recordPass]
  simp only [sure_bind]

end Complete

end LinkedEffect

/-- Nothing is missing in an effect of a host. -/
lemma Effect.Fits.complete {host : Host} {use : Nat → BlockUse} {i : Nat} {effect : Effect}
    (hfits : effect.Fits host use i)
    (himage : ∃ stored, Image.decode stored = .ok effect.linked.image) :
    effect.linked.Complete := by
  have hproper := hfits.proper
  have hnode : ∀ h, (∃ r, effect.linked.tree.root? h = some r) →
      ∃ p, effect.linked.tree.node? h = some p := by
    rintro h ⟨r, hr⟩
    obtain ⟨p, hp, -⟩ := Option.map_eq_some_iff.1 hr
    exact ⟨p, hp⟩
  refine ⟨fun path h hfind => hnode h (hproper.laid.owned h (.of_find? hfind)), fun s hs =>
    ⟨hnode _ (hproper.laid.stateOwned s hs), fun h hh => hnode h (hproper.laid.owned h ?_)⟩,
    fun h p hp h' hh' => hnode h' ⟨_, hproper.laid.members h p hp h' hh'⟩,
    fun h p hp helements => ?_⟩
  · exact hproper.sourced s hs h hh
  · obtain ⟨n, l, hlink, htree, -⟩ := hfits.linked
    obtain ⟨stored, hdecode⟩ := himage
    rw [htree] at hp
    exact (Link.made_link hlink).length_members (Image.WellFormed.of_decode hdecode) hp helements

/-! ### Passes of an effect -/

namespace EffectState

variable (s : EffectState)

/-- Apply a pass strictly, with samplers that lead on at most `depth` deep. A look-up that fails
ends it. -/
def applyPassStrict (depth t p : Nat) (pass : Pass) (full : Bool) : Response Unit :=
  let since := s.appliedAt t p
  let (stamp, memory) := s.memory.nextVersion s.linked.counter
  let outcome := s.linked.applyPassStrict depth ⟨full, since⟩ pass { s.work with memory }
  let state := s.withWork outcome.work
  match outcome.answer with
  | .ok (.ok ()) => ⟨outcome.calls, state.setApplied t p stamp, .ok ()⟩
  | .ok (.error e) => ⟨outcome.calls, state, .error (.call e)⟩
  | .error e => ⟨outcome.calls, state, .error (.evaluation e)⟩

variable {s} {t p : Nat} {pass : Pass}

variable (hcomplete : s.linked.Complete) (hpass : s.linked.pass? t p = some pass) (full : Bool)
include hcomplete hpass

/-- No look-up fails while a pass is applied, however deep samplers lead on. -/
theorem answer_applyPassStrict_ne_call (depth : Nat) (e : CallError) :
    (s.applyPassStrict depth t p pass full).answer ≠ .error (.call e) := by
  obtain ⟨step, hstep, -⟩ :=
    hcomplete.exists_applyPassStrict_eq hpass depth ⟨full, s.appliedAt t p⟩
  simp only [applyPassStrict, hstep, sure]
  cases (step _).answer <;> exact fun h => by cases h

/-- A pass is applied strictly as it is else. -/
theorem applyPassStrict_eq :
    s.applyPassStrict s.linked.samplerDepth t p pass full = s.applyPass t p pass full := by
  obtain ⟨step, hstep, heq⟩ :=
    hcomplete.exists_applyPassStrict_eq hpass s.linked.samplerDepth ⟨full, s.appliedAt t p⟩
  simp only [applyPassStrict, applyPass, hstep, heq rfl, sure]
  cases (s.linked.applyPass ⟨full, s.appliedAt t p⟩ pass _).answer <;> rfl

end EffectState

end ShaderEffect
