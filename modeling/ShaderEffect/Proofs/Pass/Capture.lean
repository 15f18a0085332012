import ShaderEffect.Proofs.Pass.Commit
import ShaderEffect.Proofs.Pass.Restore

/-!
# What is saved at the begin

Which states are saved when an effect begins depends on the objects that its parameters hold and on
no number, as long as the states of samplers take their values from the same parameters. So what was
saved once covers the passes for all numbers. States of samplers that choose from an array are the
exception: when a choice fails, the rest of the sampler is not recorded.
-/

namespace ShaderEffect

namespace EffectState

variable {s s' : EffectState}

/-- The keys of the states that are saved while an effect is begun. -/
def captured (s : EffectState) : List StateKey :=
  (s.effect.phase.saved?.join.getD []).flatMap DeviceCall.keys

lemma flatMap_keys_save (device : Device) (flags : BeginFlags) (calls : List DeviceCall) :
    (device.save flags calls).flatMap DeviceCall.keys = savedKeys flags calls := by
  simp [Device.save, List.flatMap_map]

/-- The states are saved that recorded passes set and that the flags do not leave out. -/
lemma mem_captured_begin (he : s.linked.Proper)
    (hc : s.linked.counter < s.memory.counters.size) {t : Nat} {technique : Technique}
    (htechnique : s.technique = .ok (t, technique)) (device : Device) (flags : BeginFlags)
    (key : StateKey) :
    key ∈ (s.begin device flags).state.captured ↔
      flags.saves key = true ∧
        ∃ p ∈ technique.passes, key ∈ (s.linked.recordPlan s.memory p).keys := by
  rw [begin, htechnique]
  dsimp only
  split
  · rename_i hskip
    simp [captured, Phase.saved?, BeginFlags.saves, hskip]
  · have hrecords := LinkedEffect.records_each he.settled
      (he.settled.passes technique (mem_of_technique_eq_ok htechnique))
      (w := s.work) (m := s.memory) ⟨.refl _, hc⟩
    change key ∈ (device.save flags _).flatMap DeviceCall.keys ↔ _
    rw [flatMap_keys_save, mem_savedKeys, LinkedEffect.recordTechnique, hrecords.keys]
    simp only [Plan.mem_keys]

end EffectState

namespace Host

variable {host host' : Host} {i i' : Nat} {s s' : EffectState} {t : Nat} {technique : Technique}

/-- Whatever numbers an effect holds, the same states are saved when it begins, and a pass that is
applied sets no others that the flags do not leave out; not even if states have no value. This asks
only of the states of samplers that they take their values from the same parameters. -/
theorem mem_captured_begin_iff (hhost : host.Reachable) (hs : host.state? i = some s)
    (hhost' : host'.Reachable) (hs' : host'.state? i' = some s') (hlinked : s'.linked = s.linked)
    (htechnique : s.technique = .ok (t, technique))
    (htechnique' : s'.technique = .ok (t, technique))
    (hshape : s.linked.SameShape s.memory s'.memory)
    (hchoices : ∀ p ∈ technique.passes, s.linked.SameChoicesBelow s.memory s'.memory p.states)
    (device device' : Device) (flags : BeginFlags) :
    (∀ key, key ∈ (s'.begin device' flags).state.captured ↔
      key ∈ (s.begin device flags).state.captured) ∧
    ∀ devices op, op.appliesPass = true → ∀ c ∈ (s'.perform devices op).calls, ∀ key ∈ c.keys,
      flags.saves key = true → key ∈ (s.begin device flags).state.captured := by
  have he := hhost.laidOut.proper hs
  have hc := hhost.laidOut.counter_lt hs
  have he' := hhost'.laidOut.proper hs'
  have hc' := hhost'.laidOut.counter_lt hs'
  have hcaptured := EffectState.mem_captured_begin he hc htechnique device flags
  constructor
  · intro key
    rw [hcaptured, EffectState.mem_captured_begin he' hc' htechnique', hlinked]
    refine and_congr_right fun _ => exists_congr fun p => and_congr_right fun hp => ?_
    rw [LinkedEffect.keys_recordPlan_congr hshape (hchoices p hp)]
  · intro devices op hop c hcall key hkey hflags
    rcases EffectState.passCall_perform he' hc' devices hop with ⟨e, hrefuse⟩ | ⟨t', p', p, hpass⟩
    · rw [hrefuse] at hcall
      cases hcall
    · have hp := mem_passes_of_passCall htechnique' hpass
      have hattempted := hpass.applied.mem_keys_of_mem_calls hcall hkey
      rw [hlinked] at hattempted
      exact (hcaptured key).2 ⟨hflags, p, hp,
        LinkedEffect.keys_attempted_passPlan_subset hshape (hchoices p hp) hattempted⟩

/-- To set a number leaves the objects of an effect, and how many words it has. -/
lemma sameShape_brighten (hhost : host.Reachable) (hs : host.state? i = some s) :
    (host.run [.call i brighten]).state? i = some (s.perform host.device brighten).state ∧
      (s.perform host.device brighten).state.linked = s.linked ∧
      s.linked.SameShape s.memory (s.perform host.device brighten).state.memory := by
  have hlaid := hhost.laidOut
  have hs' := state?_perform_call hs brighten
  refine ⟨hs', linked_perform hlaid hs hs', ?_⟩
  rw [(state?_eq_some.1 hs').2]
  refine sameShape_perform (d := 0) hlaid hs (undisturbed_call rfl rfl) fun op' heq => ?_
  obtain ⟨-, rfl⟩ := HostOperation.call.inj heq
  rfl

/-- The effect that chooses a sampler by a number is begun while the number is out of range. -/
def farChoosing : Host :=
  run {} [.create chooser [] none, .call 0 (.set ⟨0⟩ (.float ⟨0x40A00000⟩)), .call 0 (.begin 0 {})]

/-- The number is out of range at first, and there is nothing to apply. Still the state is saved
that the pass sets with another number. -/
theorem mem_captured_begin_iff_farChoosing :
    ∃ s ∈ farChoosing.state? 0, ∃ s', s' = (s.perform farChoosing.device brighten).state ∧
      (s.perform farChoosing.device (.beginPass 0 0)).calls = [] ∧
      (s'.perform farChoosing.device (.beginPass 0 0)).calls = [.samplerState 0 2 4] ∧
      .samplerState 0 2 ∈ (s.begin (farChoosing.device 0) {}).state.captured ∧
      ∀ key, key ∈ (s'.begin (farChoosing.device 0) {}).state.captured ↔
        key ∈ (s.begin (farChoosing.device 0) {}).state.captured := by
  obtain ⟨s, hs, ht, ⟨technique, hlookup, -⟩, hselected, hcalls, ht', hcalls'⟩ :
      ∃ s ∈ farChoosing.state? 0, s.effect.technique = some 0 ∧
        (∃ technique ∈ s.linked.techniques[0]?, True) ∧ s.linked.NoSelectedSamplerStates ∧
        (s.perform farChoosing.device (.beginPass 0 0)).calls = [] ∧
        (s.perform farChoosing.device brighten).state.effect.technique = some 0 ∧
        ((s.perform farChoosing.device brighten).state.perform farChoosing.device
          (.beginPass 0 0)).calls = [.samplerState 0 2 4] := by
    decide +kernel
  have hhost : farChoosing.Reachable := ⟨_, rfl⟩
  obtain ⟨hs', hlinked, hshape⟩ := sameShape_brighten hhost hs
  generalize hafter : (s.perform farChoosing.device brighten).state = s' at *
  have htechnique := EffectState.technique_eq_ok.2 ⟨ht, hlookup⟩
  have htechnique' := (EffectState.technique_congr hlinked (ht'.trans ht.symm)).trans htechnique
  obtain ⟨hiff, hcovers⟩ := mem_captured_begin_iff hhost hs (hhost.run [.call 0 brighten]) hs'
    hlinked htechnique htechnique' hshape (fun p _ => hselected.sameChoicesBelow p.states)
    (farChoosing.device 0) (farChoosing.device 0) {}
  have hcall : .samplerState 0 2 4 ∈ (s'.perform farChoosing.device (.beginPass 0 0)).calls := by
    rw [hcalls']
    exact List.mem_singleton_self _
  have hkey := hcovers farChoosing.device (.beginPass 0 0) rfl _ hcall (.samplerState 0 2)
    (List.mem_singleton_self _) rfl
  exact ⟨s, hs, s', hafter.symm, hcalls, hcalls', hkey, hiff⟩

/-! ### A number that chooses the state of a sampler -/

/-- An image with one pass, which sets a sampler. The first state of the sampler is chosen from two
numbers by a third, which is out of range at first. -/
def sampling : Image where
  parameters := [
    ⟨0, .words (numberDeclaration (some "which")) [0x40A00000], []⟩,
    ⟨0, .array { numberDeclaration (some "modes") with elements := 2 }
      [.words (numberDeclaration (some "modes")) [1],
        .words (numberDeclaration (some "modes")) [2]],
      []⟩,
    ⟨0, .sampler (samplerDeclaration (some "map") 0)
      [⟨155, 0, .words (numberDeclaration none) [0]⟩,
        ⟨156, 0, .words (numberDeclaration none) [4]⟩], []⟩]
  techniques :=
    [⟨none, [], [⟨none, [], [⟨168, 0, .sampler (samplerDeclaration none 0) []⟩]⟩]⟩]
  objectCount := 0
  objectData := []
  resources := [
    ⟨0, 0, noIndex, 0, 1, #[109, 97, 112, 0]⟩,
    ⟨noIndex, 2, noIndex, 0, 2, #[6, 0, 0, 0, 109, 111, 100, 101, 115, 0, 0, 0] ++
      (copyProgram "which").encode.toArray⟩]

/-- An effect made from the image. -/
def samplings : Host := run {} [.create sampling [] none]

/-- The choices of sampler states have to stay. Else the states that follow in the sampler may not
be saved, although the sampler sets them with another number. -/
theorem captured_begin_ne_of_selected :
    ∃ s ∈ samplings.state? 0, ∃ s', s' = (s.perform samplings.device brighten).state ∧
      s'.linked = s.linked ∧ s.linked.SameShape s.memory s'.memory ∧
      .samplerState 0 2 ∉ (s.begin (samplings.device 0) {}).state.captured ∧
      .samplerState 0 2 ∈ (s'.begin (samplings.device 0) {}).state.captured := by
  obtain ⟨s, hs, ht, ht', technique, hlookup, hnot, hmem⟩ : ∃ s ∈ samplings.state? 0,
      s.effect.technique = some 0 ∧
      (s.perform samplings.device brighten).state.effect.technique = some 0 ∧
      ∃ technique ∈ s.linked.techniques[0]?,
        (∀ p ∈ technique.passes, .samplerState 0 2 ∉ (s.linked.recordPlan s.memory p).keys) ∧
        ∃ p ∈ technique.passes, .samplerState 0 2 ∈
          (s.linked.recordPlan (s.perform samplings.device brighten).state.memory p).keys := by
    decide +kernel
  have hhost : samplings.Reachable := ⟨_, rfl⟩
  obtain ⟨hs', hlinked, hshape⟩ := sameShape_brighten hhost hs
  generalize hafter : (s.perform samplings.device brighten).state = s' at *
  have htechnique := EffectState.technique_eq_ok.2 ⟨ht, hlookup⟩
  have htechnique' := (EffectState.technique_congr hlinked (ht'.trans ht.symm)).trans htechnique
  have hlaid := hhost.laidOut
  have hlaid' := (hhost.run [.call 0 brighten]).laidOut
  refine ⟨s, hs, s', hafter.symm, hlinked, hshape, fun hcaptured => ?_, ?_⟩
  · obtain ⟨-, p, hp, hkey⟩ := (EffectState.mem_captured_begin (hlaid.proper hs)
      (hlaid.counter_lt hs) htechnique _ _ _).1 hcaptured
    exact hnot p hp hkey
  · refine (EffectState.mem_captured_begin (hlaid'.proper hs') (hlaid'.counter_lt hs') htechnique'
      _ _ _).2 ⟨rfl, ?_⟩
    rw [hlinked]
    exact hmem

end Host

end ShaderEffect
