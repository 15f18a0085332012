import ShaderEffect.Proofs.Host.Run
import ShaderEffect.Proofs.Link.Sources
import ShaderEffect.Proofs.Plan.Later

/-!
# Calls to an effect

What one call leaves behind. Setters write their targets. A pass that is applied makes what is due
of its plan, and writes only what its expressions compute; it counts as applied if no state failed
(`EffectState.Applied`). All other calls leave memory alone.
-/

namespace ShaderEffect

namespace LinkedEffect

variable {e : LinkedEffect}

lemma mem_of_pass? {t p : Nat} {pass : Pass} (h : e.pass? t p = some pass) :
    ∃ technique ∈ e.techniques, pass ∈ technique.passes := by
  obtain ⟨technique, ht, hp⟩ := Option.bind_eq_some_iff.1 h
  exact ⟨technique, List.mem_of_getElem? ht, List.mem_of_getElem? hp⟩

/-- States do what is planned in a memory that has the same blocks. -/
lemma Alike.of_block_eq {m m' : Memory} (h : ∀ id, m'.block id = m.block id) : e.Alike m m' where
  objects id _ := by rw [h]
  size_words id _ := by rw [h]
  block id _ _ := h id

lemma due_congr_block {m m' : Memory} (h : ∀ id, m'.block id = m.block id) (mode : Mode)
    (plan : Plan) : e.due m' mode plan = e.due m mode plan := by
  have hdirty : ∀ hs, e.anyDirty m' hs mode.since = e.anyDirty m hs mode.since := fun hs => by
    have hisDirty : ∀ h', e.isDirty m' h' mode.since = e.isDirty m h' mode.since := fun h' => by
      rw [isDirty, isDirty, version_congr fun id _ => h id]
    simp only [anyDirty, hisDirty]
  induction plan with
  | nil => rfl
  | cons event plan ih => cases event with
    | act inputs action => rw [due, due, hdirty, ih]
    | fail error => rfl

end LinkedEffect

namespace EffectState

/-! ### Passes -/

/-- The pass of a technique was applied, or failed. -/
structure Applied (s : EffectState) (t p : Nat) (mode : Mode) (plan : Plan) (r : Response Unit) :
    Prop where
  answer : r.answer = .ok () ↔ plan.answer = .ok ()
  calls : r.calls = (s.linked.due s.memory mode plan).flatMap Action.calls ++
    if plan.answer = .ok () then
      (s.work.restart.assignAll (s.linked.due s.memory mode plan)).flushCalls
    else []
  /-- What was assigned is kept. What was not applied counts as it did before. -/
  effect : r.state.effect = { s.effect with
    lights := (s.work.restart.assignAll (s.linked.due s.memory mode plan)).lights
    material := (s.work.restart.assignAll (s.linked.due s.memory mode plan)).material
    applied := if plan.answer = .ok () then
        s.effect.applied.modify t (·.set p (s.memory.counter s.linked.counter + 1))
      else s.effect.applied
    phase := r.state.effect.phase }
  evolves : Memory.Evolves s.linked.counter s.linked.Computed s.memory r.state.memory
  alike : s.linked.Alike s.memory r.state.memory
  counter : s.memory.counter s.linked.counter < r.state.memory.counter s.linked.counter

variable {s : EffectState}

/-- What applying a pass works on: what the effect holds, after an update was drawn. -/
def drawn (s : EffectState) : Work := s.work.withMemory (s.memory.nextVersion s.linked.counter).2

section

variable {t p : Nat} {pass : Pass} {full : Bool}

/-- A pass whose states all have their effect has the update noted as its last. -/
lemma applyPass_of_ok
    (h : (s.linked.applyPass ⟨full, s.appliedAt t p⟩ pass s.drawn).answer = .ok ()) :
    s.applyPass t p pass full =
      let outcome := s.linked.applyPass ⟨full, s.appliedAt t p⟩ pass s.drawn
      ⟨outcome.calls, (s.withWork outcome.work).setApplied t p
        (s.memory.counter s.linked.counter + 1), .ok ()⟩ := by
  dsimp only [applyPass, Memory.nextVersion]
  split
  · rfl
  · rename_i hfail
    cases h.symm.trans hfail

/-- A pass of which a state fails keeps the update noted as its last. -/
lemma applyPass_of_error {error : EvaluationError}
    (h : (s.linked.applyPass ⟨full, s.appliedAt t p⟩ pass s.drawn).answer = .error error) :
    s.applyPass t p pass full =
      let outcome := s.linked.applyPass ⟨full, s.appliedAt t p⟩ pass s.drawn
      ⟨outcome.calls, s.withWork outcome.work, .error (.evaluation error)⟩ := by
  dsimp only [applyPass, Memory.nextVersion]
  split
  · rename_i hok
    cases h.symm.trans hok
  · rename_i hfail
    cases h.symm.trans hfail
    rfl

end

/-- A pass is applied as it is planned in the memory before. -/
lemma applies_drawn (he : s.linked.Proper) (hc : s.linked.counter < s.memory.counters.size)
    {t p : Nat} {pass : Pass} (hpass : s.linked.pass? t p = some pass) (mode : Mode) :
    s.linked.Applies (s.memory.nextVersion s.linked.counter).2 mode
      (s.linked.passPlan s.memory pass) s.drawn (s.linked.applyPass mode pass s.drawn) := by
  obtain ⟨technique, htechnique, hmem⟩ := LinkedEffect.mem_of_pass? hpass
  have hsound := he.settled.passes technique htechnique pass hmem
  have hready : s.linked.Ready (s.memory.nextVersion s.linked.counter).2 s.drawn :=
    ⟨.refl _, by rw [drawn, Work.memory_withMemory, Memory.size_counters_nextVersion]; exact hc⟩
  have hblock : ∀ id, (s.memory.nextVersion s.linked.counter).2.block id = s.memory.block id :=
    fun _ => rfl
  rw [← LinkedEffect.passPlan_congr he.settled (.of_block_eq hblock) hsound]
  exact LinkedEffect.applies_applyPass he.settled hsound hready

/-- A pass is applied as planned. -/
theorem applied_applyPass (he : s.linked.Proper) (hc : s.linked.counter < s.memory.counters.size)
    {t p : Nat} {pass : Pass} (hpass : s.linked.pass? t p = some pass) (full : Bool) :
    s.Applied t p ⟨full, s.appliedAt t p⟩ (s.linked.passPlan s.memory pass)
      (s.applyPass t p pass full) := by
  let mode : Mode := ⟨full, s.appliedAt t p⟩
  let memory := (s.memory.nextVersion s.linked.counter).2
  let outcome := s.linked.applyPass mode pass (s.work.withMemory memory)
  have hblock : ∀ id, memory.block id = s.memory.block id := fun _ => rfl
  have hcounter : memory.counter s.linked.counter = s.memory.counter s.linked.counter + 1 :=
    Memory.counter_nextVersion_self _ hc
  have happlies : s.linked.Applies memory mode (s.linked.passPlan s.memory pass)
      (s.work.withMemory memory) outcome := s.applies_drawn he hc hpass mode
  generalize hplan : s.linked.passPlan s.memory pass = plan at happlies
  have hdue := s.linked.due_congr_block hblock mode plan
  have hassigned : (s.work.withMemory memory).restart.assignAll (s.linked.due memory mode plan) =
      (s.work.restart.assignAll (s.linked.due s.memory mode plan)).withMemory memory := by
    rw [hdue]
    exact s.work.restart.assignAll_withMemory memory _
  have hwork : outcome.work.withMemory memory =
      (s.work.restart.assignAll (s.linked.due s.memory mode plan)).withMemory memory :=
    happlies.work.trans hassigned
  have hlights : outcome.work.lights =
      (s.work.restart.assignAll (s.linked.due s.memory mode plan)).lights :=
    (congrArg Work.lights hwork :)
  have hmaterial : outcome.work.material =
      (s.work.restart.assignAll (s.linked.due s.memory mode plan)).material :=
    (congrArg Work.material hwork :)
  have hcalls := happlies.calls
  rw [hassigned, Work.flushCalls_withMemory, hdue] at hcalls
  have hevolves : Memory.Evolves s.linked.counter s.linked.Computed s.memory outcome.work.memory :=
    ((Memory.evolves_nextVersion s.memory s.linked.counter).trans happlies.evolves).mono
      fun _ h => h.resolve_left id
  have halike : s.linked.Alike s.memory outcome.work.memory :=
    .trans (.of_block_eq hblock) happlies.alike
  have hstamp : s.memory.counter s.linked.counter <
      outcome.work.memory.counter s.linked.counter := by
    have hle := happlies.evolves.counter_le s.linked.counter
    rw [Work.memory_withMemory, hcounter] at hle
    exact hle
  cases hok : plan.answer with
  | ok =>
    rw [applyPass_of_ok (happlies.answer.trans hok)]
    refine ⟨by simp [hok], hcalls, ?_, hevolves, halike, hstamp⟩
    rw [if_pos hok, ← hlights, ← hmaterial]
    rfl
  | error error =>
    rw [applyPass_of_error (happlies.answer.trans hok)]
    refine ⟨by simp [hok], hcalls, ?_, hevolves, halike, hstamp⟩
    rw [if_neg (by simp [hok]), ← hlights, ← hmaterial]
    rfl

lemma sound_of_pass? {t p : Nat} {pass : Pass} (he : s.linked.Proper)
    (hlookup : s.linked.pass? t p = some pass) :
    ∀ state ∈ pass.states, s.linked.Sound state := by
  obtain ⟨technique, htechnique, hmem⟩ := LinkedEffect.mem_of_pass? hlookup
  exact he.settled.passes technique htechnique pass hmem

lemma passInUse_eq_ok {p t : Nat} {pass : Pass} (h : s.passInUse p = .ok (t, pass)) :
    s.effect.technique = some t ∧ s.linked.pass? t p = some pass := by
  obtain ⟨⟨t', technique⟩, htechnique, h⟩ := exists_of_bind_eq_ok h
  rw [EffectState.technique] at htechnique
  split at htechnique
  · cases htechnique
  · rename_i t'' ht
    split at htechnique
    · cases htechnique
    · rename_i hlookup
      cases htechnique
      simp only at h
      split at h
      · rename_i hpass
        cases h
        exact ⟨ht, by simp [LinkedEffect.pass?, hlookup, hpass]⟩
      · cases h

end EffectState

namespace Phase

/-- What was saved when an effect was begun. -/
def saved? : Phase → Option (Option Snapshot)
  | .idle => none
  | .begun saved _ => some saved

end Phase

namespace Operation

/-- Whether a call applies a pass. -/
def appliesPass : Operation → Bool
  | .beginPass .. | .commit _ => true
  | _ => false

/-- Whether a call applies all of a pass. -/
def isFull : Operation → Bool
  | .beginPass .. => true
  | _ => false

/-- Whether a call is about the values of parameters. -/
def setsValues : Operation → Bool
  | .set .. | .reset _ | .beginBlock | .endBlock | .applyBlock _ | .deleteBlock _ => true
  | _ => false

/-- Whether a call computes the values of states. -/
def computes : Operation → Bool
  | .begin .. | .beginPass .. | .commit _ => true
  | _ => false

end Operation

namespace EffectState

variable (s : EffectState)

/-- The pass that a call applies, if it applies one. -/
def passOf : Operation → Option (Nat × Nat)
  | .beginPass _ p => s.effect.technique.map (·, p)
  | .commit _ => s.activePass
  | _ => none

/-- A call applies a pass successfully. -/
def Completes (devices : Nat → Device) (op : Operation) (t p : Nat) : Prop :=
  s.passOf op = some (t, p) ∧ (s.perform devices op).answer = .ok ()

instance (devices : Nat → Device) (op : Operation) (t p : Nat) :
    Decidable (s.Completes devices op t p) :=
  inferInstanceAs (Decidable (_ ∧ _))

/-- A call that applies a pass, and what comes of it. -/
structure PassCall (op : Operation) (t p : Nat) (pass : Pass) (r : Response Unit) : Prop where
  passOf : s.passOf op = some (t, p)
  lookup : s.linked.pass? t p = some pass
  applied : s.Applied t p ⟨op.isFull, s.appliedAt t p⟩ (s.linked.passPlan s.memory pass) r
  saved : r.state.effect.phase.saved? = s.effect.phase.saved?
  active : r.state.active = if r.answer = .ok () then some p else s.active

variable {s}

lemma technique_of_passOf {op : Operation} {t p : Nat} (h : s.passOf op = some (t, p)) :
    s.effect.technique = some t := by
  cases op with
  | beginPass device p' =>
    obtain ⟨t', ht', heq⟩ := Option.map_eq_some_iff.1 h
    cases heq
    exact ht'
  | commit device =>
    obtain ⟨t', ht', h⟩ := Option.bind_eq_some_iff.1 h
    obtain ⟨p', -, heq⟩ := Option.bind_eq_some_iff.1 h
    cases heq
    exact ht'
  | _ => cases h

lemma phase_applyPass (s : EffectState) (t p : Nat) (pass : Pass) (full : Bool) :
    (s.applyPass t p pass full).state.effect.phase = s.effect.phase := by
  rw [applyPass]
  dsimp only
  split <;> rfl

lemma passCall_beginPass (he : s.linked.Proper) (hc : s.linked.counter < s.memory.counters.size)
    (device p : Nat) :
    (∃ e, s.beginPass device p = s.refuse e) ∨
      ∃ t pass, s.PassCall (.beginPass device p) t p pass (s.beginPass device p) := by
  rw [beginPass]
  split
  · exact .inl ⟨_, rfl⟩
  · exact .inl ⟨_, rfl⟩
  · rename_i saved hphase
    split
    · exact .inl ⟨_, rfl⟩
    · rename_i t pass hpass
      split
      · exact .inl ⟨_, rfl⟩
      · obtain ⟨htechnique, hpass⟩ := passInUse_eq_ok hpass
        have happlied := applied_applyPass he hc hpass true
        have hpassOf : s.passOf (.beginPass device p) = some (t, p) := by
          simp [passOf, htechnique]
        generalize hresponse : s.applyPass t p pass true = r at happlied
        have hphase' : r.state.effect.phase = .begun saved none := by
          rw [← hphase, ← hresponse, phase_applyPass]
        refine .inr ⟨t, pass, ?_⟩
        cases hanswer : r.answer with
        | ok =>
          have hactive : r.state.setActive (some p) = { r.state with
              effect := { r.state.effect with phase := .begun saved (some p) } } := by
            rw [setActive, hphase']
          simp only [hanswer, hactive]
          refine ⟨hpassOf, hpass, ⟨?_, happlied.calls, ?_, happlied.evolves, happlied.alike,
            happlied.counter⟩, ?_, ?_⟩
          · simpa [hanswer] using happlied.answer
          · exact (congrArg (fun effect : Effect =>
              { effect with phase := .begun saved (some p) }) happlied.effect :)
          · simp [Phase.saved?, hphase]
          · simp [active]
        | error error =>
          simp only [hanswer]
          refine ⟨hpassOf, hpass, happlied, by rw [hphase', hphase], ?_⟩
          simp [active, hanswer, hphase, hphase']

lemma passCall_commit (he : s.linked.Proper) (hc : s.linked.counter < s.memory.counters.size)
    (device : Nat) :
    (∃ e, s.commit device = s.refuse e) ∨
      ∃ t p pass, s.PassCall (.commit device) t p pass (s.commit device) := by
  rw [commit]
  split
  · exact .inl ⟨_, rfl⟩
  · rename_i p hactive
    split
    · exact .inl ⟨_, rfl⟩
    · rename_i t pass hpass
      split
      · exact .inl ⟨_, rfl⟩
      · obtain ⟨htechnique, hpass⟩ := passInUse_eq_ok hpass
        have hphase := phase_applyPass s t p pass false
        refine .inr ⟨t, p, pass, ?_, hpass, applied_applyPass he hc hpass false, ?_, ?_⟩
        · simp [passOf, activePass, htechnique, hactive]
        · rw [hphase]
        · have hactive' : (s.applyPass t p pass false).state.active = s.active := by
            rw [active, active, hphase]
          rw [hactive', hactive, ite_self]

/-- A call that applies a pass is refused, or applies it as planned. -/
theorem passCall_perform (he : s.linked.Proper) (hc : s.linked.counter < s.memory.counters.size)
    (devices : Nat → Device) {op : Operation} (hop : op.appliesPass = true) :
    (∃ e, s.perform devices op = s.refuse e) ∨
      ∃ t p pass, s.PassCall op t p pass (s.perform devices op) := by
  cases op with
  | beginPass device p =>
    exact (passCall_beginPass he hc device p).imp_right fun ⟨t, pass, h⟩ => ⟨t, p, pass, h⟩
  | commit device => exact passCall_commit he hc device
  | _ => cases hop

/-! ### All calls -/

/-- A call that changes nothing of an effect but its blocks of recorded values. -/
def Stays (s s' : EffectState) : Prop :=
  ∃ blocks recording, s'.effect = { s.effect with blocks, recording }

/-- What a call leaves in memory. -/
structure Leaves (s : EffectState) (op : Operation) (s' : EffectState) : Prop where
  linked : s'.linked = s.linked
  within : ∀ (id : Nat) (k : Storage) (j : Nat),
    (k.values (s'.memory.block id).toContents)[j]? =
        (k.values (s.memory.block id).toContents)[j]? ∨
      s.linked.Addresses (s.written op) id k j ∨ op.computes = true ∧ s.linked.Computed id
  evolves : Memory.Evolves s.linked.counter
    (fun id => s.linked.BlocksOf (s.written op) id ∨ op.computes = true ∧ s.linked.Computed id)
    s.memory s'.memory
  stamped : ∀ id, s.linked.BlocksOf (s.written op) id → id < s.memory.blocks.size →
    s.memory.counter s.linked.counter < (s'.memory.block id).version

namespace Stays

lemma refl (s : EffectState) : Stays s s := ⟨_, _, rfl⟩

lemma of_setting {hs : List Handle} {s' : EffectState} (h : Setting s hs s') : Stays s s' := by
  obtain ⟨recording, heffect⟩ := h.effect
  exact ⟨_, recording, heffect⟩

variable {s' : EffectState} (h : Stays s s')
include h

lemma linked : s'.linked = s.linked := by
  obtain ⟨blocks, recording, heffect⟩ := h
  rw [EffectState.linked, heffect]

lemma technique : s'.effect.technique = s.effect.technique := by
  obtain ⟨blocks, recording, heffect⟩ := h
  rw [heffect]

lemma applied : s'.effect.applied = s.effect.applied := by
  obtain ⟨blocks, recording, heffect⟩ := h
  rw [heffect]

lemma phase : s'.effect.phase = s.effect.phase := by
  obtain ⟨blocks, recording, heffect⟩ := h
  rw [heffect]

lemma manager : s'.effect.manager = s.effect.manager := by
  obtain ⟨blocks, recording, heffect⟩ := h
  rw [heffect]

lemma lights : s'.effect.lights = s.effect.lights := by
  obtain ⟨blocks, recording, heffect⟩ := h
  rw [heffect]

lemma material : s'.effect.material = s.effect.material := by
  obtain ⟨blocks, recording, heffect⟩ := h
  rw [heffect]

end Stays

lemma Leaves.of_setting {op : Operation} {s' : EffectState} (h : Setting s (s.written op) s') :
    Leaves s op s' where
  linked := h.linked
  within id k j := (h.within id k j).imp_right .inl
  evolves := h.writes.mono fun _ => .inl
  stamped := h.writes.stamped

/-- A call that writes no parameter and leaves memory alone. -/
lemma Leaves.of_memory {op : Operation} {s' : EffectState} (hlinked : s'.linked = s.linked)
    (hmemory : s'.memory = s.memory) (hwritten : s.written op = []) : Leaves s op s' where
  linked := hlinked
  within _ _ _ := .inl (by rw [hmemory])
  evolves := hmemory ▸ .refl ..
  stamped id hid := by simp [hwritten, LinkedEffect.BlocksOf] at hid

/-- What a call to the values of an effect comes to. -/
lemma stays_leaves_of_setValues (hc : s.linked.counter < s.memory.counters.size)
    (devices : Nat → Device) {op : Operation} (hop : op.setsValues = true) :
    Stays s (s.perform devices op).state ∧ Leaves s op (s.perform devices op).state := by
  have hsetting : ∀ s', Setting s (s.written op) s' → Stays s s' ∧ Leaves s op s' :=
    fun s' h => ⟨.of_setting h, .of_setting h⟩
  have hsame : ∀ s', Stays s s' → s'.memory = s.memory → s.written op = [] →
      Stays s s' ∧ Leaves s op s' :=
    fun s' h hmemory hwritten => ⟨h, .of_memory h.linked hmemory hwritten⟩
  cases op with
  | set h setter =>
    rw [perform]
    cases hset : s.set h setter with
    | ok s' =>
      refine hsetting s' ?_
      rw [written, hset]
      exact setting_set hc hset
    | error e => exact hsame s (.refl s) rfl (by rw [written, hset])
  | reset h =>
    rw [perform]
    cases hset : s.resetValue h with
    | ok s' => exact hsetting s' (setting_resetValue hc hset)
    | error e =>
      -- There is no such parameter, so it has no block.
      refine ⟨.refl s, rfl, fun _ _ _ => .inl rfl, .refl .., fun id hid => ?_⟩
      obtain ⟨p, hp, -⟩ := s.linked.blockOf?_eq_some.1 (s.linked.blocksOf_singleton.1 hid)
      simp [resetValue, node, hp] at hset
  | beginBlock =>
    rw [perform, beginBlock]
    split
    · exact hsame s (.refl s) rfl rfl
    · exact hsame _ ⟨_, _, rfl⟩ rfl rfl
  | endBlock =>
    rw [perform, endBlock]
    split
    · exact hsame s (.refl s) rfl rfl
    · exact hsame _ ⟨_, _, rfl⟩ rfl rfl
  | applyBlock i =>
    rw [perform]
    cases hset : s.applyBlock i with
    | ok s' => exact hsetting s' (setting_applyBlock hc hset)
    | error e =>
      refine hsame s (.refl s) rfl ?_
      rw [written, blockTargets, block?_of_applyBlock_eq_error hset]
      rfl
  | deleteBlock i =>
    rw [perform, deleteBlock]
    split
    · exact hsame _ ⟨_, _, rfl⟩ rfl rfl
    · exact hsame s (.refl s) rfl rfl
  | _ => cases hop

lemma technique_eq_ok {t : Nat} {technique : Technique} :
    s.technique = .ok (t, technique) ↔
      s.effect.technique = some t ∧ s.linked.techniques[t]? = some technique := by
  rw [EffectState.technique]
  split
  · rename_i hnone
    simp [hnone]
  · rename_i t' ht'
    rw [ht']
    cases hlookup : s.linked.techniques[t']? with
    | none =>
      refine iff_of_false (fun h => by cases h) ?_
      rintro ⟨heq, h⟩
      cases heq
      rw [hlookup] at h
      cases h
    | some technique' =>
      simp only [Except.ok.injEq, Prod.mk.injEq, Option.some.injEq]
      refine and_congr_right fun heq => ?_
      rw [← heq, hlookup, Option.some.injEq]

/-- The technique in use is one of the effect's. -/
lemma mem_of_technique_eq_ok {t : Nat} {technique : Technique}
    (h : s.technique = .ok (t, technique)) : technique ∈ s.linked.techniques :=
  List.mem_of_getElem? (technique_eq_ok.1 h).2

/-- To begin is to be refused, to save nothing, or to save what the calls of all passes would
change. -/
structure Begun (s : EffectState) (device : Device) (flags : BeginFlags) (r : Response Nat) :
    Prop where
  calls : r.calls = []
  technique : ∃ t technique, s.technique = .ok (t, technique)
  effect : ∃ saved lights material, r.state.effect =
    { s.effect with phase := .begun saved none, lights, material }
  evolves : Memory.Evolves s.linked.counter s.linked.Computed s.memory r.state.memory
  alike : s.linked.Alike s.memory r.state.memory
  saved : flags.skipAll = true ∧ r.state.effect.phase.saved? = some none ∨
    flags.skipAll = false ∧ ∃ calls,
      r.state.effect.phase.saved? = some (some (device.save flags calls)) ∧
      ∀ t technique, s.technique = .ok (t, technique) → ∀ key,
        (∃ p ∈ technique.passes, ∃ a ∈ (s.linked.recordPlan s.memory p).actions, key ∈ a.keys) →
          ∃ c ∈ calls, key ∈ c.keys

lemma begun_begin (he : s.linked.Proper) (hc : s.linked.counter < s.memory.counters.size)
    (device : Device) (flags : BeginFlags) :
    (∃ e, s.begin device flags = s.refuse e) ∨ s.Begun device flags (s.begin device flags) := by
  rw [EffectState.begin]
  split
  · exact .inl ⟨_, rfl⟩
  · rename_i t technique htechnique
    refine .inr ?_
    simp only
    split
    case isTrue hskip =>
      exact ⟨rfl, ⟨t, technique, htechnique⟩, ⟨none, s.effect.lights, s.effect.material, rfl⟩,
        .refl .., .refl _, .inl ⟨hskip, rfl⟩⟩
    case isFalse hskip =>
      have hready : s.linked.Ready s.memory s.work := ⟨.refl _, hc⟩
      have hrecords := LinkedEffect.records_each he.settled
        (he.settled.passes technique (mem_of_technique_eq_ok htechnique)) hready
      refine ⟨rfl, ⟨t, technique, htechnique⟩, ⟨_, _, _, rfl⟩, hrecords.evolves, hrecords.alike,
        .inr ⟨by simpa using hskip, _, rfl, fun t' technique' h => ?_⟩⟩
      obtain ⟨rfl, rfl⟩ := Prod.mk.inj (Except.ok.inj (htechnique.symm.trans h))
      exact fun key => (hrecords.keys key).2

/-- What a pass computes is all that it changes. -/
lemma Leaves.of_computed {op : Operation} {s' : EffectState} (hlinked : s'.linked = s.linked)
    (hevolves : Memory.Evolves s.linked.counter s.linked.Computed s.memory s'.memory)
    (hop : op.computes = true) (hwritten : s.written op = []) : Leaves s op s' where
  linked := hlinked
  within id k j := by
    by_cases hid : s.linked.Computed id
    · exact .inr (.inr ⟨hop, hid⟩)
    · exact .inl (by rw [hevolves.block_eq hid])
  evolves := hevolves.mono fun _ h => .inr ⟨hop, h⟩
  stamped id hid := by simp [hwritten, LinkedEffect.BlocksOf] at hid

lemma leaves_refuse (op : Operation) (hop : s.written op = []) (e : CallError) :
    Leaves s op (s.refuse e : Response Unit).state :=
  .of_memory rfl rfl hop

lemma written_of_not_setsValues {op : Operation} (hop : op.setsValues = false) :
    s.written op = [] := by
  cases op <;> first | rfl | cases hop

/-- What a call leaves in memory: it writes its targets, and stores what it computes. -/
theorem leaves_perform (he : s.linked.Proper) (hc : s.linked.counter < s.memory.counters.size)
    (devices : Nat → Device) (op : Operation) : Leaves s op (s.perform devices op).state := by
  by_cases hop : op.setsValues = true
  · exact (stays_leaves_of_setValues hc devices hop).2
  have hwritten := s.written_of_not_setsValues (Bool.eq_false_iff.2 hop)
  by_cases hpass : op.appliesPass = true
  · have hcomputes : op.computes = true := by cases op <;> first | rfl | cases hpass
    rcases passCall_perform he hc devices hpass with ⟨e, hrefuse⟩ | ⟨t, p, pass, hcall⟩
    · rw [hrefuse]
      exact s.leaves_refuse op hwritten e
    · exact .of_computed (by rw [EffectState.linked, hcall.applied.effect])
        hcall.applied.evolves hcomputes hwritten
  · cases op with
    | begin device flags =>
      rw [perform]
      rcases begun_begin he hc (devices device) flags with ⟨e, hrefuse⟩ | hbegun
      · rw [hrefuse]
        exact s.leaves_refuse _ hwritten e
      · obtain ⟨saved, lights, material, heffect⟩ := hbegun.effect
        exact .of_computed (by rw [EffectState.linked, Response.forget, heffect]) hbegun.evolves
          rfl hwritten
    | setTechnique t =>
      rw [perform, setTechnique]
      split
      · exact .of_memory rfl rfl hwritten
      · exact .of_memory rfl rfl hwritten
    | setManager manager => exact .of_memory rfl rfl hwritten
    | endPass =>
      rw [perform, endPass]
      split
      · exact .of_memory rfl rfl hwritten
      · refine .of_memory ?_ ?_ hwritten <;>
        · rw [orKeep, setActive]
          split <;> rfl
    | finish device =>
      rw [perform, finish]
      split
      · exact .of_memory rfl rfl hwritten
      · exact .of_memory rfl rfl hwritten
    | beginPass device p | commit device => exact absurd rfl hpass
    | _ => exact absurd rfl hop

/-! ### When passes count as applied -/

lemma applied_of_not_appliesPass (hc : s.linked.counter < s.memory.counters.size)
    (devices : Nat → Device) {op : Operation} (hop : op.appliesPass = false) :
    (s.perform devices op).state.effect.applied = s.effect.applied := by
  by_cases hvalues : op.setsValues = true
  · exact (stays_leaves_of_setValues hc devices hvalues).1.applied
  · cases op with
    | begin device flags =>
      rw [perform, EffectState.begin]
      split
      · rfl
      · dsimp only
        split <;> rfl
    | setTechnique t =>
      rw [perform, setTechnique]
      split <;> rfl
    | setManager manager => rfl
    | endPass =>
      rw [perform, endPass]
      split
      · rfl
      · rw [orKeep, setActive]
        split <;> rfl
    | finish device =>
      rw [perform, finish]
      split <;> rfl
    | beginPass device p | commit device => cases hop
    | _ => exact absurd rfl hvalues

lemma passCall_of_completes (he : s.linked.Proper)
    (hc : s.linked.counter < s.memory.counters.size) {devices : Nat → Device} {op : Operation}
    {t p : Nat} (h : s.Completes devices op t p) :
    ∃ pass, s.PassCall op t p pass (s.perform devices op) := by
  obtain ⟨hpassOf, hanswer⟩ := h
  have hop : op.appliesPass = true := by cases op <;> first | rfl | cases hpassOf
  rcases passCall_perform he hc devices hop with ⟨e, hrefuse⟩ | ⟨t', p', pass, hcall⟩
  · rw [hrefuse] at hanswer
    cases hanswer
  · obtain ⟨rfl, rfl⟩ := Prod.mk.inj (Option.some.inj (hcall.passOf.symm.trans hpassOf))
    exact ⟨pass, hcall⟩

/-- A pass that was applied counts as applied when its stamp was drawn. -/
lemma applied_of_completes (he : s.linked.Proper) (hc : s.linked.counter < s.memory.counters.size)
    {devices : Nat → Device} {op : Operation} {t p : Nat} (h : s.Completes devices op t p) :
    (s.perform devices op).state.effect.applied =
        s.effect.applied.modify t (·.set p (s.memory.counter s.linked.counter + 1)) ∧
      s.memory.counter s.linked.counter <
        (s.perform devices op).state.memory.counter s.linked.counter := by
  obtain ⟨pass, hcall⟩ := passCall_of_completes he hc h
  refine ⟨?_, hcall.applied.counter⟩
  rw [hcall.applied.effect, if_pos (hcall.applied.answer.1 h.2)]

/-- Nothing else counts as applied after a call than before. -/
lemma applied_of_not_completes (he : s.linked.Proper)
    (hc : s.linked.counter < s.memory.counters.size) {devices : Nat → Device} {op : Operation}
    (h : ∀ t p, ¬s.Completes devices op t p) :
    (s.perform devices op).state.effect.applied = s.effect.applied := by
  by_cases hop : op.appliesPass = true
  · rcases passCall_perform he hc devices hop with ⟨e, hrefuse⟩ | ⟨t, p, pass, hcall⟩
    · rw [hrefuse]
      rfl
    · have hanswer : ¬(s.linked.passPlan s.memory pass).answer = .ok () := fun hok =>
        h t p ⟨hcall.passOf, hcall.applied.answer.2 hok⟩
      rw [hcall.applied.effect, if_neg hanswer]
  · exact applied_of_not_appliesPass hc devices (Bool.eq_false_iff.2 hop)

end EffectState

end ShaderEffect
