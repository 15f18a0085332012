import ShaderEffect.Proofs.Device
import ShaderEffect.Proofs.Plan.Follow

/-!
# Passes follow their plans

A pass that is applied makes the calls that are due of its plan and then, unless a state failed,
sends the lights and the material it assigned. A pass that is recorded makes all calls of the plans
of its recorded states.
-/

namespace ShaderEffect

/-! ### Lights and material that were assigned -/

namespace Action

/-- The keys of the states that an action sets, sooner or later. -/
def keys : Action → List StateKey
  | .call c => c.keys
  | .light index _ _ => if index.toNat < Light.count then [.light index] else []
  | .material .. => [.material]

/-- Whether an action makes its calls at once. -/
def isCall : Action → Bool
  | .call _ => true
  | .light .. | .material .. => false

end Action

namespace Work

/-- The calls that send what was assigned. -/
def flushCalls (w : Work) : List DeviceCall := w.lightCalls ++ w.materialCalls

lemma flush_eq (w : Work) : Step.flush w = ⟨w.flushCalls, w, .ok ()⟩ := rfl

@[simp] lemma flushCalls_withMemory (w : Work) (m : Memory) :
    (w.withMemory m).flushCalls = w.flushCalls := rfl

@[simp] lemma flushCalls_restart (w : Work) : w.restart.flushCalls = [] := by
  simp [flushCalls, lightCalls, materialCalls, restart]

lemma lightsSet_assign (w : Work) (a : Action) {i : Nat} (h : i < Light.count) :
    (w.assign a).lightsSet[i] = true ↔
      w.lightsSet[i] = true ∨ .light (UInt32.ofNat i) ∈ a.keys ∧ a.isCall = false := by
  cases a with
  | call c => simp [assign, Action.isCall]
  | material op words => simp [assign, assignMaterial, Action.keys]
  | light index op words =>
    have hofNat : (UInt32.ofNat i).toNat = i :=
      UInt32.toNat_ofNat_of_lt' (Nat.lt_trans h (by decide))
    simp only [assign, assignLight, Action.keys, Action.isCall, and_true]
    by_cases hindex : index.toNat < Light.count
    · simp only [dif_pos hindex, if_pos hindex, List.mem_singleton, StateKey.light.injEq,
        Vector.getElem_set]
      by_cases heq : index.toNat = i
      · have : UInt32.ofNat i = index := UInt32.toNat_inj.1 (hofNat.trans heq.symm)
        simp [heq, this]
      · have : UInt32.ofNat i ≠ index := fun h => heq (h ▸ hofNat)
        simp [heq, this]
    · simp [dif_neg hindex, if_neg hindex]

lemma lightsSet_assignAll (w : Work) (actions : List Action) {i : Nat} (h : i < Light.count) :
    (w.assignAll actions).lightsSet[i] = true ↔ w.lightsSet[i] = true ∨
      ∃ a ∈ actions, .light (UInt32.ofNat i) ∈ a.keys ∧ a.isCall = false := by
  induction actions generalizing w with
  | nil => simp [assignAll]
  | cons a rest ih =>
    have hcons : w.assignAll (a :: rest) = (w.assign a).assignAll rest := rfl
    rw [hcons, ih, lightsSet_assign, or_assoc, List.exists_mem_cons_iff]

lemma materialSet_assign (w : Work) (a : Action) :
    (w.assign a).materialSet = true ↔
      w.materialSet = true ∨ .material ∈ a.keys ∧ a.isCall = false := by
  cases a with
  | call c => simp [assign, Action.isCall]
  | material op words => simp [assign, assignMaterial, Action.keys, Action.isCall]
  | light index op words =>
    simp only [assign, assignLight, Action.keys]
    split <;> simp_all

lemma materialSet_assignAll (w : Work) (actions : List Action) :
    (w.assignAll actions).materialSet = true ↔ w.materialSet = true ∨
      ∃ a ∈ actions, .material ∈ a.keys ∧ a.isCall = false := by
  induction actions generalizing w with
  | nil => simp [assignAll]
  | cons a rest ih =>
    have hcons : w.assignAll (a :: rest) = (w.assign a).assignAll rest := rfl
    rw [hcons, ih, materialSet_assign, or_assoc, List.exists_mem_cons_iff]

/-- What is sent in the end are the lights and the material that were assigned. -/
lemma exists_mem_flushCalls_assignAll (w : Work) (actions : List Action) (key : StateKey) :
    (∃ c ∈ (w.restart.assignAll actions).flushCalls, key ∈ c.keys) ↔
      ∃ a ∈ actions, key ∈ a.keys ∧ a.isCall = false := by
  have hmaterial : w.restart.materialSet = false := rfl
  simp only [flushCalls, List.mem_append, or_and_right, exists_or]
  constructor
  · rintro (⟨c, hc, hkey⟩ | ⟨c, hc, hkey⟩)
    · obtain ⟨i, -, hi⟩ := List.mem_filterMap.1 hc
      split at hi
      · rename_i hset
        cases hi
        obtain rfl := List.mem_singleton.1 hkey
        exact ((lightsSet_assignAll _ actions i.isLt).1 hset).resolve_left (by simp [restart])
      · cases hi
    · rw [materialCalls] at hc
      split at hc
      · rename_i hset
        obtain rfl := List.mem_singleton.1 hc
        obtain rfl := List.mem_singleton.1 hkey
        simpa [hmaterial] using (materialSet_assignAll _ actions).1 hset
      · cases hc
  · rintro ⟨a, ha, hkey, hcall⟩
    cases a with
    | call c => cases hcall
    | material op words =>
      obtain rfl := List.mem_singleton.1 hkey
      have hset := (materialSet_assignAll w.restart actions).2 (.inr ⟨_, ha, hkey, rfl⟩)
      exact .inr ⟨_, by rw [materialCalls, if_pos hset]; exact List.mem_singleton.2 rfl,
        List.mem_singleton.2 rfl⟩
    | light index op words =>
      have hkey' := hkey
      rw [Action.keys] at hkey
      split at hkey
      · rename_i hindex
        obtain rfl := List.mem_singleton.1 hkey
        have hofNat : UInt32.ofNat index.toNat = index := by simp
        have hset := (lightsSet_assignAll w.restart actions hindex).2
          (.inr ⟨_, ha, by simpa [hofNat] using hkey', rfl⟩)
        refine .inl ⟨.light index (w.restart.assignAll actions).lights[index.toNat],
          List.mem_filterMap.2 ⟨⟨index.toNat, hindex⟩, List.mem_finRange _, ?_⟩,
          List.mem_singleton.2 rfl⟩
        simp [hset]
      · cases hkey

/-- The calls that come of some actions have keys of these. -/
lemma exists_mem_of_mem_calls (w : Work) {actions : List Action} {flushed : Prop}
    [Decidable flushed] {c : DeviceCall}
    (hc : c ∈ actions.flatMap Action.calls ++
      if flushed then (w.restart.assignAll actions).flushCalls else [])
    {key : StateKey} (hkey : key ∈ c.keys) : ∃ a ∈ actions, key ∈ a.keys := by
  rcases List.mem_append.1 hc with hc | hc
  · obtain ⟨a, ha, hc⟩ := List.mem_flatMap.1 hc
    cases a with
    | call c' =>
      obtain rfl := List.mem_singleton.1 hc
      exact ⟨_, ha, hkey⟩
    | light index op words | material op words => cases hc
  · split at hc
    · obtain ⟨a, ha, hkey, -⟩ := (exists_mem_flushCalls_assignAll w _ key).1 ⟨c, hc, hkey⟩
      exact ⟨a, ha, hkey⟩
    · cases hc

end Work

namespace LinkedEffect

variable {e : LinkedEffect} {m : Memory} {mode : Mode} {w : Work}

/-! ### Applying -/

/-- A pass that is applied follows its plan, from nothing assigned on; unless a state failed, it
sends in the end what it assigned. -/
structure Applies (e : LinkedEffect) (m : Memory) (mode : Mode) (plan : Plan) (w : Work)
    (o : Outcome Unit) : Prop where
  answer : o.answer = plan.answer
  calls : o.calls = (e.due m mode plan).flatMap Action.calls ++
    if plan.answer = .ok () then (w.restart.assignAll (e.due m mode plan)).flushCalls else []
  work : o.work.withMemory w.memory = w.restart.assignAll (e.due m mode plan)
  evolves : Memory.Evolves e.counter e.Computed w.memory o.work.memory
  alike : e.Alike w.memory o.work.memory

lemma Ready.restart (hw : e.Ready m w) : e.Ready m w.restart := ⟨hw.alike, hw.counter⟩

/-- Steps between forgetting what was assigned and sending it. -/
lemma applies_of_follows {plan : Plan} {step : Step Unit}
    (h : e.Follows m mode plan w.restart (step w.restart)) :
    e.Applies m mode plan w
      (Step.andThen (Step.change Work.restart) (fun _ => Step.andThen step fun _ => Step.flush) w)
      := by
  have hflush : (step w.restart).work.flushCalls =
      (w.restart.assignAll (e.due m mode plan)).flushCalls := by
    rw [← h.work, Work.flushCalls_withMemory]
  cases hanswer : plan.answer with
  | error error =>
    have houtcome : Step.andThen (Step.change Work.restart)
        (fun _ => Step.andThen step fun _ => Step.flush) w =
          ⟨(step w.restart).calls, (step w.restart).work, .error error⟩ := by
      simp only [Step.andThen, Step.change, List.nil_append, h.answer.trans hanswer]
    rw [houtcome]
    refine ⟨hanswer.symm, ?_, h.work, h.evolves, h.alike⟩
    rw [if_neg (by rw [hanswer]; exact fun h => by cases h), List.append_nil]
    exact h.calls
  | ok =>
    have houtcome : Step.andThen (Step.change Work.restart)
        (fun _ => Step.andThen step fun _ => Step.flush) w =
          ⟨(step w.restart).calls ++ (step w.restart).work.flushCalls, (step w.restart).work,
            .ok ()⟩ := by
      simp only [Step.andThen, Step.change, List.nil_append, h.answer.trans hanswer, Work.flush_eq]
    rw [houtcome]
    refine ⟨hanswer.symm, ?_, h.work, h.evolves, h.alike⟩
    rw [if_pos hanswer, ← hflush]
    exact congrArg (· ++ _) h.calls

/-- A pass is applied as planned. -/
theorem applies_applyPass (hsettled : e.Settled) {p : Pass} (hp : ∀ s ∈ p.states, e.Sound s)
    (hw : e.Ready m w) : e.Applies m mode (e.passPlan m p) w (e.applyPass mode p w) :=
  applies_of_follows <| follows_each p.states
    (fun _ hs _ hw' => follows_applyPassState hsettled (hp _ hs) hw') hw.restart

/-- Unless a state failed, the calls of a pass have all keys of actions that are due. -/
lemma Applies.exists_mem_calls {plan : Plan} {o : Outcome Unit} (h : e.Applies m mode plan w o)
    (hanswer : plan.answer = .ok ()) {a : Action} (ha : a ∈ e.due m mode plan) {key : StateKey}
    (hkey : key ∈ a.keys) : ∃ c ∈ o.calls, key ∈ c.keys := by
  rw [h.calls, if_pos hanswer]
  by_cases hcall : a.isCall = true
  · cases a with
    | call c =>
      refine ⟨c, List.mem_append_left _ (List.mem_flatMap.2 ⟨_, ha, ?_⟩), hkey⟩
      exact List.mem_singleton.2 rfl
    | light index op words | material op words => cases hcall
  · obtain ⟨c, hc, hkey⟩ := (Work.exists_mem_flushCalls_assignAll w _ key).2
      ⟨a, ha, hkey, by simpa using hcall⟩
    exact ⟨c, List.mem_append_right _ hc, hkey⟩

/-! ### Recording -/

end LinkedEffect

namespace Plan

/-- A plan up to its first failure. -/
def attempted : Plan → Plan
  | [] => []
  | .act inputs action :: rest => .act inputs action :: attempted rest
  | .fail _ :: _ => []

@[simp] lemma answer_attempted (plan : Plan) : plan.attempted.answer = .ok () := by
  induction plan with
  | nil => rfl
  | cons event plan ih => cases event with
    | act inputs action => exact ih
    | fail error => rfl

lemma attempted_eq_self {plan : Plan} (h : plan.answer = .ok ()) : plan.attempted = plan := by
  induction plan with
  | nil => rfl
  | cons event plan ih => cases event with
    | act inputs action => exact congrArg _ (ih h)
    | fail error => cases h

end Plan

namespace LinkedEffect

variable {e : LinkedEffect} {m : Memory} {mode : Mode} {w : Work}

lemma due_attempted (plan : Plan) : e.due m mode plan.attempted = e.due m mode plan := by
  induction plan with
  | nil => rfl
  | cons event plan ih => cases event with
    | act inputs action => rw [Plan.attempted, due, due, ih]
    | fail error => rfl

/-- A step that may fail follows the plan up to the failure. -/
lemma Follows.attempt {plan : Plan} {step : Step Unit} (h : e.Follows m mode plan w (step w)) :
    e.Follows m mode plan.attempted w (step.attempt w) where
  calls := by rw [due_attempted, ← h.calls]; rfl
  answer := (Plan.answer_attempted plan).symm
  work := by rw [due_attempted, ← h.work]; rfl
  evolves := h.evolves
  alike := h.alike

/-- The plan of a pass when it is recorded. -/
def recordPlan (e : LinkedEffect) (m : Memory) (p : Pass) : Plan :=
  (p.states.flatMap e.recordedStates).flatMap fun s => (e.passStatePlan m s).attempted

lemma answer_recordPlan (p : Pass) : (e.recordPlan m p).answer = .ok () :=
  Plan.answer_flatMap fun _ _ => Plan.answer_attempted _

/-- The states that stand for a state read no more than it does. -/
lemma Sound.of_mem_recordedStates {s s' : StateEntry} (hs : e.Sound s)
    (h : s' ∈ e.recordedStates s) : e.Sound s' := by
  rw [recordedStates] at h
  split at h
  · rename_i array p hsource
    split at h
    · rename_i q hq
      obtain ⟨member, hmember, rfl⟩ := List.mem_map.1 h
      refine ⟨fun h hh => ?_, fun p hp => by cases hp⟩
      obtain rfl := List.mem_singleton.1 hh
      refine hs.stable _ ?_
      simp only [reads, hsource, hq]
      exact List.mem_append_right _ hmember
    · cases h
  · obtain rfl := List.mem_singleton.1 h
    exact hs

lemma applies_recordPass (hsettled : e.Settled) {p : Pass} (hp : ∀ s ∈ p.states, e.Sound s)
    (hw : e.Ready m w) : e.Applies m ⟨true, 0⟩ (e.recordPlan m p) w (e.recordPass p w) := by
  refine applies_of_follows (follows_each _ (fun s' hs' w' hw' => ?_) hw.restart)
  obtain ⟨s, hs, hs'⟩ := List.mem_flatMap.1 hs'
  exact (follows_applyPassState hsettled ((hp s hs).of_mem_recordedStates hs') hw').attempt

/-- The calls of a recorded pass have the keys of its plan. -/
lemma exists_mem_calls_recordPass (hsettled : e.Settled) {p : Pass}
    (hp : ∀ s ∈ p.states, e.Sound s) (hw : e.Ready m w) (key : StateKey) :
    (∃ c ∈ (e.recordPass p w).calls, key ∈ c.keys) ↔
      ∃ a ∈ (e.recordPlan m p).actions, key ∈ a.keys := by
  have happlies := applies_recordPass hsettled hp hw
  have hdue : e.due m ⟨true, 0⟩ (e.recordPlan m p) = (e.recordPlan m p).actions :=
    due_full rfl (answer_recordPlan p)
  constructor
  · rintro ⟨c, hc, hkey⟩
    rw [happlies.calls, hdue] at hc
    exact w.exists_mem_of_mem_calls hc hkey
  · rintro ⟨a, ha, hkey⟩
    exact happlies.exists_mem_calls (answer_recordPlan p) (hdue ▸ ha) hkey

/-- Assign what recorded passes assign, one after the other. -/
def assignRecorded (e : LinkedEffect) (m : Memory) (passes : List Pass) (w : Work) : Work :=
  passes.foldl (fun w p => w.restart.assignAll (e.recordPlan m p).actions) w

lemma assignRecorded_withMemory (passes : List Pass) (w : Work) (m' : Memory) :
    e.assignRecorded m passes (w.withMemory m') =
      (e.assignRecorded m passes w).withMemory m' := by
  induction passes generalizing w with
  | nil => rfl
  | cons p rest ih =>
    have hfirst : (w.withMemory m').restart.assignAll (e.recordPlan m p).actions =
        (w.restart.assignAll (e.recordPlan m p).actions).withMemory m' :=
      w.restart.assignAll_withMemory m' _
    exact (congrArg (rest.foldl _) hfirst).trans (ih _)

/-- Passes that are recorded one after the other make calls with the keys of their plans, and assign
what these assign. -/
structure Records (e : LinkedEffect) (m : Memory) (passes : List Pass) (w : Work)
    (o : Outcome Unit) : Prop where
  answer : o.answer = .ok ()
  keys : ∀ key, (∃ c ∈ o.calls, key ∈ c.keys) ↔
    ∃ p ∈ passes, ∃ a ∈ (e.recordPlan m p).actions, key ∈ a.keys
  work : o.work.withMemory w.memory = e.assignRecorded m passes w
  evolves : Memory.Evolves e.counter e.Computed w.memory o.work.memory
  alike : e.Alike w.memory o.work.memory

/-- Passes are recorded as planned. -/
theorem records_each (hsettled : e.Settled) {passes : List Pass}
    (hpasses : ∀ p ∈ passes, ∀ s ∈ p.states, e.Sound s) (hw : e.Ready m w) :
    e.Records m passes w (Step.each e.recordPass passes w) := by
  induction passes generalizing w with
  | nil =>
    refine ⟨rfl, fun key => ⟨?_, ?_⟩, rfl, .refl .., .refl _⟩
    · rintro ⟨c, hc, -⟩
      cases hc
    · rintro ⟨p, hp, -⟩
      cases hp
  | cons p rest ih =>
    have hp := hpasses p List.mem_cons_self
    have hfirst := applies_recordPass hsettled hp hw
    have hanswer := hfirst.answer.trans (answer_recordPlan p)
    have hrest := ih (fun q hq => hpasses q (List.mem_cons_of_mem _ hq))
      (w := (e.recordPass p w).work)
      ⟨hw.alike.trans hfirst.alike, hfirst.evolves.size_counters ▸ hw.counter⟩
    have houtcome : Step.each e.recordPass (p :: rest) w =
        ⟨(e.recordPass p w).calls ++ (Step.each e.recordPass rest (e.recordPass p w).work).calls,
          (Step.each e.recordPass rest (e.recordPass p w).work).work,
          (Step.each e.recordPass rest (e.recordPass p w).work).answer⟩ := by
      simp only [Step.each, Step.andThen, hanswer]
    rw [houtcome]
    refine ⟨hrest.answer, fun key => ?_, ?_,
      (hfirst.evolves.trans hrest.evolves).mono fun _ => or_self_iff.1,
      hfirst.alike.trans hrest.alike⟩
    · simp only [List.mem_append, or_and_right, exists_or, List.exists_mem_cons_iff,
        exists_mem_calls_recordPass hsettled hp hw key, hrest.keys key]
    · have hassigned : (e.recordPass p w).work.withMemory w.memory =
          w.restart.assignAll (e.recordPlan m p).actions := by
        rw [hfirst.work, due_full rfl (answer_recordPlan p)]
      calc (Step.each e.recordPass rest (e.recordPass p w).work).work.withMemory w.memory
          = (e.assignRecorded m rest (e.recordPass p w).work).withMemory w.memory := by
            rw [← hrest.work, Work.withMemory_withMemory]
        _ = e.assignRecorded m rest (w.restart.assignAll (e.recordPlan m p).actions) := by
            rw [← assignRecorded_withMemory, hassigned]

end LinkedEffect

end ShaderEffect
