import ShaderEffect.Proofs.Pass.Restore
import ShaderEffect.Proofs.Pass.Subrun
import ShaderEffect.Proofs.Plan.Cells

/-!
# Recording leaves traces in fields

To begin an effect with saving is to record its passes, and recorded passes assign the fields of
lights and of the material that the effect keeps. Nothing else of them lasts: a pass that is begun
afterwards answers alike and makes the same device calls, except that the lights and the material it
sends can have fields that only other passes assign. If the pass assigns these fields itself, what
it sends is the same too.
-/

namespace ShaderEffect

lemma DeviceCall.keys_outline (c : DeviceCall) : c.outline.keys = c.keys := by
  cases c <;> rfl

namespace Work

variable {w w' : Work}

/-- A call that is sent in the end sets one state. -/
lemma exists_keys_of_mem_flushCalls {c : DeviceCall} (hc : c ∈ w.flushCalls) :
    ∃ key, c.keys = [key] := by
  rcases List.mem_append.1 hc with hc | hc
  · obtain ⟨i, -, hi⟩ := List.mem_filterMap.1 hc
    split at hi
    · cases hi
      exact ⟨_, rfl⟩
    · cases hi
  · rw [materialCalls] at hc
    split at hc
    · obtain rfl := List.mem_singleton.1 hc
      exact ⟨_, rfl⟩
    · cases hc

/-- What is sent in the end depends on what is assigned, and on the fields that are sent with it. -/
lemma flushCalls_assignAll_congr {actions : List Action}
    (h : ∀ a ∈ actions, a.isCall = false → ∀ key ∈ a.keys,
      (w'.fields.assignAll actions).send? key = (w.fields.assignAll actions).send? key) :
    (w'.restart.assignAll actions).flushCalls = (w.restart.assignAll actions).flushCalls := by
  have houtline := outline_flushCalls_congr w w' actions
  have hlength := congrArg List.length houtline
  rw [List.length_map, List.length_map] at hlength
  refine List.ext_getElem hlength fun k hk' hk => ?_
  -- Calls in the same place send the same state.
  have hmem := List.getElem_mem hk
  have hmem' := List.getElem_mem hk'
  have hkeys := congrArg (·[k]?.map DeviceCall.keys) houtline
  simp only [List.getElem?_map, List.getElem?_eq_getElem hk, List.getElem?_eq_getElem hk',
    Option.map_some, DeviceCall.keys_outline, Option.some.injEq] at hkeys
  obtain ⟨key, hkey⟩ := exists_keys_of_mem_flushCalls hmem
  have hkeyMem : key ∈ _ := hkey ▸ List.mem_singleton_self key
  obtain ⟨a, ha, hakey, hacall⟩ :=
    (w.exists_mem_flushCalls_assignAll actions key).1 ⟨_, hmem, hkeyMem⟩
  have hsend := send?_of_mem_flushCalls hmem hkeyMem
  have hsend' := send?_of_mem_flushCalls hmem' (hkeys ▸ hkeyMem)
  rw [fields_assignAll] at hsend hsend'
  exact Option.some.inj (hsend'.symm.trans ((h a ha hacall key hakey).trans hsend))

end Work

namespace LinkedEffect

variable {e : LinkedEffect} {m : Memory}

/-- The actions of recorded passes. -/
def recordedActions (e : LinkedEffect) (m : Memory) (passes : List Pass) : List Action :=
  passes.flatMap fun p => (e.recordPlan m p).actions

lemma fields_assignRecorded (passes : List Pass) (w : Work) :
    (e.assignRecorded m passes w).fields = w.fields.assignAll (e.recordedActions m passes) := by
  induction passes generalizing w with
  | nil => rfl
  | cons p rest ih =>
    refine (ih _).trans ?_
    rw [Work.fields_assignAll, recordedActions, recordedActions, List.flatMap_cons]
    exact List.foldl_append.symm

/-- A pass assigns again what recorded passes assign to the lights and the material that it
sends. -/
def Reassigns (e : LinkedEffect) (m : Memory) (passes : List Pass) (p : Pass) : Prop :=
  ∀ a ∈ (e.passPlan m p).actions, a.isCall = false → ∀ key ∈ a.keys,
    ∀ b ∈ e.recordedActions m passes, b.isCall = false → key ∈ b.keys →
      ∃ a' ∈ (e.passPlan m p).actions, a'.Covers b

instance (passes : List Pass) (p : Pass) : Decidable (e.Reassigns m passes p) :=
  inferInstanceAs (Decidable (∀ a ∈ (e.passPlan m p).actions, a.isCall = false → ∀ key ∈ a.keys,
    ∀ b ∈ e.recordedActions m passes, b.isCall = false → key ∈ b.keys →
      ∃ a' ∈ (e.passPlan m p).actions, a'.Covers b))

end LinkedEffect

namespace EffectState

variable {s s' : EffectState} {recorded : List Action}

/-- An effect has begun, and some actions were recorded. -/
structure Recorded (s : EffectState) (recorded : List Action) (s' : EffectState) : Prop where
  linked : s'.linked = s.linked
  technique : s'.effect.technique = s.effect.technique
  manager : s'.effect.manager = s.effect.manager
  phase : ∃ saved, s'.effect.phase = .begun saved none
  fields : s'.work.fields = s.work.fields.assignAll recorded
  alike : s.linked.Alike s.memory s'.memory
  counter : s.linked.counter < s'.memory.counters.size

/-- To begin is to record all passes, or none. -/
lemma recorded_begin (he : s.linked.Proper) (hc : s.linked.counter < s.memory.counters.size)
    {t : Nat} {technique : Technique} (htechnique : s.technique = .ok (t, technique))
    (device : Device) (flags : BeginFlags) :
    (s.begin device flags).answer = .ok technique.passes.length ∧
      s.Recorded (if flags.skipAll then []
        else s.linked.recordedActions s.memory technique.passes) (s.begin device flags).state := by
  rw [begin, htechnique]
  dsimp only
  split
  · exact ⟨rfl, rfl, rfl, rfl, ⟨_, rfl⟩, rfl, .refl _, hc⟩
  · have hrecords := LinkedEffect.records_each he.settled
      (he.settled.passes technique (mem_of_technique_eq_ok htechnique))
      (w := s.work) (m := s.memory) ⟨.refl _, hc⟩
    refine ⟨rfl, rfl, rfl, rfl, ⟨_, rfl⟩, ?_, hrecords.alike, ?_⟩
    · exact (congrArg Work.fields hrecords.work).trans (LinkedEffect.fields_assignRecorded ..)
    · exact hrecords.evolves.size_counters ▸ hc

/-- What a pass shows when it is applied in full to an effect that has begun. -/
lemma Recorded.shown_applyPass (h : s.Recorded recorded s') (he : s.linked.Proper) {t p : Nat}
    {pass : Pass} (hpass : s.linked.pass? t p = some pass) :
    (s'.applyPass t p pass true).shown =
      let plan := s.linked.passPlan s.memory pass
      let actions := plan.attempted.actions
      (plan.answer.mapError .evaluation, actions.flatMap Action.calls ++
        if plan.answer = .ok () then (s'.work.restart.assignAll actions).flushCalls else []) := by
  have hlinked := h.linked
  have hplan : s'.linked.passPlan s'.memory pass = s.linked.passPlan s.memory pass := by
    rw [hlinked]
    exact LinkedEffect.passPlan_congr he.settled h.alike (sound_of_pass? he hpass)
  have hdue : ∀ plan since, s'.linked.due s'.memory ⟨true, since⟩ plan = plan.attempted.actions :=
    fun plan since => by
      rw [← LinkedEffect.due_attempted, LinkedEffect.due_full rfl plan.answer_attempted]
  rw [EffectState.shown_applyPass (hlinked ▸ he) (hlinked ▸ h.counter) (hlinked ▸ hpass)]
  simp only [hplan, hdue]

/-- A pass that is begun after an effect is refused as before, or applied in full. -/
lemma Recorded.shown_beginPass (h : s.Recorded recorded s') (d p : Nat) :
    (s'.beginPass d p).shown = match s.passInUse p with
      | .error e => (.error (.call e), [])
      | .ok (t, pass) =>
        if s.isManagerInUse d then (.error (.call .managerInUse), [])
        else (s'.applyPass t p pass true).shown := by
  obtain ⟨saved, hphase⟩ := h.phase
  have hpassInUse : s'.passInUse p = s.passInUse p := by
    rw [passInUse, passInUse, technique_congr h.linked h.technique]
  have hmanager : s'.isManagerInUse d = s.isManagerInUse d := by
    rw [isManagerInUse, isManagerInUse, h.manager]
  rw [EffectState.shown_beginPass, hphase]
  dsimp only
  rw [hpassInUse]
  cases s.passInUse p with
  | error e => rfl
  | ok found =>
    dsimp only
    rw [hmanager]

/-- What was recorded is seen at most in the lights and the material that a pass sends. -/
lemma Recorded.outline_beginPass {recorded' : List Action} {s₁ s₂ : EffectState}
    (h₁ : s.Recorded recorded s₁) (h₂ : s.Recorded recorded' s₂) (he : s.linked.Proper)
    (d p : Nat) :
    (s₁.beginPass d p).answer = (s₂.beginPass d p).answer ∧
      (s₁.beginPass d p).calls.map DeviceCall.outline =
        (s₂.beginPass d p).calls.map DeviceCall.outline := by
  suffices h : Prod.map id (List.map DeviceCall.outline) (s₁.beginPass d p).shown =
      Prod.map id (List.map DeviceCall.outline) (s₂.beginPass d p).shown from
    ⟨congrArg Prod.fst h, congrArg Prod.snd h⟩
  rw [h₁.shown_beginPass, h₂.shown_beginPass]
  split
  · rfl
  · rename_i t pass hpass
    split
    · rfl
    · have hpass := (passInUse_eq_ok hpass).2
      rw [h₁.shown_applyPass he hpass, h₂.shown_applyPass he hpass]
      refine Prod.ext rfl ?_
      simp only [Prod.map_snd, List.map_append, apply_ite (List.map DeviceCall.outline),
        Work.outline_flushCalls_congr s₂.work s₁.work]

/-- What was recorded is not seen at all in a pass that assigns it again. -/
lemma Recorded.calls_beginPass {s₀ : EffectState} {passes : List Pass}
    (h : s.Recorded recorded s') (hsubset : recorded ⊆ s.linked.recordedActions s.memory passes)
    (h₀ : s.Recorded [] s₀) (he : s.linked.Proper) {d p : Nat}
    (hreassigns : ∀ t pass, s.passInUse p = .ok (t, pass) →
      s.linked.Reassigns s.memory passes pass) :
    (s'.beginPass d p).shown = (s₀.beginPass d p).shown := by
  rw [h.shown_beginPass, h₀.shown_beginPass]
  cases hpassInUse : s.passInUse p with
  | error e => rfl
  | ok found =>
    obtain ⟨t, pass⟩ := found
    dsimp only
    split
    · rfl
    · have hpass := (passInUse_eq_ok hpassInUse).2
      rw [h.shown_applyPass he hpass, h₀.shown_applyPass he hpass]
      refine Prod.ext rfl ?_
      dsimp only
      split
      · rename_i hok
        rw [Plan.attempted_eq_self hok]
        congr 1
        refine Work.flushCalls_assignAll_congr fun a ha hcall key hkey => ?_
        rw [h.fields, h₀.fields]
        exact Fields.send?_assignAll_assignAll _ fun b hb hbcall hbkey =>
          hreassigns t pass hpassInUse a ha hcall key hkey b (hsubset hb) hbcall hbkey
      · rfl

end EffectState

namespace Host

variable {host : Host} {i : Nat} {s : EffectState}

/-- Whether states are saved at the begin is not seen in the passes: a pass that is begun next
answers alike and makes the same device calls, up to the contents of lights and of the material; and
these are the same as well if the pass assigns again what the passes of the technique assign to
them. -/
theorem beginPass_begin (hhost : host.Reachable) (hs : host.state? i = some s) (device : Device)
    (flags : BeginFlags) (d p : Nat) :
    (s.begin device flags).answer = (s.begin device { skipAll := true }).answer ∧
    ((s.begin device flags).state.beginPass d p).answer =
      ((s.begin device { skipAll := true }).state.beginPass d p).answer ∧
    ((s.begin device flags).state.beginPass d p).calls.map DeviceCall.outline =
      ((s.begin device { skipAll := true }).state.beginPass d p).calls.map DeviceCall.outline ∧
    ((∀ t technique pass, s.technique = .ok (t, technique) → technique.passes[p]? = some pass →
        s.linked.Reassigns s.memory technique.passes pass) →
      ((s.begin device flags).state.beginPass d p).calls =
        ((s.begin device { skipAll := true }).state.beginPass d p).calls) := by
  have he := hhost.laidOut.proper hs
  have hc := hhost.laidOut.counter_lt hs
  cases htechnique : s.technique with
  | error e =>
    have hrefuse : ∀ flags, s.begin device flags = s.refuse e := fun flags => by
      rw [EffectState.begin, htechnique]
    rw [hrefuse, hrefuse]
    exact ⟨rfl, rfl, rfl, fun _ => rfl⟩
  | ok found =>
    obtain ⟨t, technique⟩ := found
    obtain ⟨hanswer, hrecorded⟩ := EffectState.recorded_begin he hc htechnique device flags
    obtain ⟨hanswer₀, hrecorded₀⟩ :=
      EffectState.recorded_begin he hc htechnique device { skipAll := true }
    obtain ⟨hpass, hcalls⟩ := hrecorded.outline_beginPass hrecorded₀ he d p
    refine ⟨hanswer.trans hanswer₀.symm, hpass, hcalls, fun hreassigns => ?_⟩
    refine congrArg Prod.snd (hrecorded.calls_beginPass ?_ hrecorded₀ he fun t' pass hpass =>
      hreassigns t technique pass rfl (EffectState.getElem?_of_passInUse htechnique hpass))
    split
    · exact List.nil_subset _
    · exact List.Subset.refl _

/-- A state of a pass that is set to a word of its own. -/
def fixedState (operation word : UInt32) : Assignment Node :=
  ⟨operation, 0, .words (numberDeclaration none) [word]⟩

/-- An effect with one technique, whose passes set states to words of their own. -/
def fixed (passes : List (List (Assignment Node))) : Host :=
  run {} [.create
    { parameters := []
      techniques := [⟨none, [], passes.map fun states => ⟨none, [], states⟩⟩]
      objectCount := 0
      objectData := []
      resources := [] } [] none]

/-- Two passes set the type of a light. -/
def retyping : Host := fixed [[fixedState 132 1], [fixedState 132 2, fixedState 0 5]]

/-- The second pass sends its own type of the light, whether the first was recorded or not. -/
theorem beginPass_begin_retyping :
    ∃ s ∈ retyping.state? 0,
      ((s.begin {} {}).state.beginPass 0 1).calls = [.renderState 7 5, .light 0 { type := 2 }] ∧
      ((s.begin {} {}).state.beginPass 0 1).calls =
        ((s.begin {} { skipAll := true }).state.beginPass 0 1).calls := by
  obtain ⟨s, hs, hreassigns, hcalls⟩ : ∃ s ∈ retyping.state? 0,
      (∀ t ∈ s.effect.technique, ∀ technique ∈ s.linked.techniques[t]?,
        ∀ pass ∈ technique.passes[1]?, s.linked.Reassigns s.memory technique.passes pass) ∧
      ((s.begin {} {}).state.beginPass 0 1).calls =
        [.renderState 7 5, .light 0 { type := 2 }] := by
    decide +kernel
  refine ⟨s, hs, hcalls, (beginPass_begin ⟨_, rfl⟩ hs {} {} 0 1).2.2.2 ?_⟩
  intro t technique pass htechnique hpass
  obtain ⟨ht, hlookup⟩ := EffectState.technique_eq_ok.1 htechnique
  exact hreassigns t ht technique hlookup pass hpass

/-- A pass sets the type of a light, and the next one its range. -/
def ranging : Host := fixed [[fixedState 132 1], [fixedState 138 0x41200000]]

/-- The fields have to be assigned again. Else the second pass sends the type that the first pass
would set, though it was only recorded. -/
theorem calls_beginPass_begin_ne :
    ∃ s ∈ ranging.state? 0,
      ((s.begin {} {}).state.beginPass 0 1).calls =
        [.light 0 { type := 1, range := ⟨0x41200000⟩ }] ∧
      ((s.begin {} { skipAll := true }).state.beginPass 0 1).calls =
        [.light 0 { range := ⟨0x41200000⟩ }] := by
  decide +kernel

end Host

end ShaderEffect
