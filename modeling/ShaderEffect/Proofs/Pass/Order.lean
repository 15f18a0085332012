import ShaderEffect.Proofs.Pass.Capture
import ShaderEffect.Proofs.Pass.Subrun

/-!
# The order of restoring

What is saved when an effect begins is one call for each of some states, and no state twice
(`Saves`). Each of these calls sets its own state and no other, so the calls may be made in any
order (`Device.Canonical.query_applyAll_perm`).
-/

namespace ShaderEffect

namespace Device

variable {d : Device}

/-- A device that calls brought about. -/
def Reachable (d : Device) : Prop := ∃ calls, d = ({} : Device).applyAll calls

lemma Reachable.canonical (h : d.Reachable) : d.Canonical := by
  obtain ⟨calls, rfl⟩ := h
  exact canonical_default.applyAll calls

/-- Answers of a device are known by their keys. -/
lemma map_query_flatMap_keys {keys : List StateKey} {calls : List DeviceCall}
    (h : ∀ c ∈ calls, c ∈ keys.map d.query) :
    (calls.flatMap DeviceCall.keys).map d.query = calls := by
  induction calls with
  | nil => rfl
  | cons c rest ih =>
    obtain ⟨hc, hrest⟩ := List.forall_mem_cons.1 h
    obtain ⟨key, -, rfl⟩ := List.mem_map.1 hc
    rw [List.flatMap_cons, List.map_append, ih hrest, keys_query]
    rfl

/-- States can be set back to what a canonical device held in any order. -/
lemma Canonical.query_applyAll_perm (h : d.Canonical) {keys : List StateKey}
    {order : List DeviceCall} (horder : order.Perm (keys.map d.query)) (target : Device)
    (key : StateKey) : (target.applyAll order).query key =
      if key ∈ keys then d.query key else target.query key := by
  have hback := map_query_flatMap_keys fun c hc => horder.mem_iff.1 hc
  have hkeys : (order.flatMap DeviceCall.keys).Perm keys := by
    refine (horder.flatMap_right _).trans (.of_eq ?_)
    simp [List.flatMap_map]
  rw [← hback, h.query_applyAll_map_query]
  simp only [hkeys.mem_iff]

end Device

namespace EffectState

variable {s begun : EffectState} {device : Device} {flags : BeginFlags} {passes : Nat}

/-- An effect has saved states of a device: for each of some that the flags save, and for none of
them twice, the call that sets it back. -/
structure Saves (s : EffectState) (device : Device) (flags : BeginFlags) : Prop where
  answer_eq : s.finish.answer = .ok ()
  calls_eq : s.finish.calls = s.captured.map device.query
  nodup : s.captured.Nodup
  saves : ∀ key ∈ s.captured, flags.saves key = true

lemma Saves.of_phase {calls : List DeviceCall} {active : Option Nat}
    (h : s.effect.phase = .begun (some (device.save flags calls)) active) :
    s.Saves device flags := by
  have hcaptured : s.captured = savedKeys flags calls := by
    rw [captured, h]
    exact flatMap_keys_save ..
  refine ⟨?_, ?_, hcaptured ▸ nodup_savedKeys .., fun key hkey => ?_⟩
  · rw [finish, h]
  · rw [finish, h, hcaptured]
    rfl
  · exact (mem_savedKeys.1 (hcaptured ▸ hkey)).1

lemma saves_of_begin (h : s.begin device flags = ⟨[], begun, .ok passes⟩) :
    begun.Saves device flags := by
  rw [begin] at h
  cases htechnique : s.technique with
  | error e =>
    rw [htechnique] at h
    cases h
  | ok found =>
    simp only [htechnique] at h
    split at h
    · -- All states are left out: there is nothing to set back.
      cases h
      exact ⟨rfl, rfl, List.nodup_nil, fun _ hkey => absurd hkey List.not_mem_nil⟩
    · cases h
      exact .of_phase rfl

end EffectState

namespace Host

/-- When an effect begins, it saves no state twice and none that the flags leave out. What it saved
may be set back in any order, on any device: the saved states are then what they were, and all
others stay, so that no query tells one order from another. -/
theorem restore_in_any_order {s begun : EffectState} {device : Device} {flags : BeginFlags}
    {passes : Nat} (hdevice : device.Reachable)
    (hbegin : s.begin device flags = ⟨[], begun, .ok passes⟩) :
    begun.Saves device flags ∧
      ∀ order, order.Perm begun.finish.calls → ∀ (target : Device) (key : StateKey),
        (target.applyAll order).query key =
          if key ∈ begun.captured then device.query key else target.query key := by
  have hsaves := EffectState.saves_of_begin hbegin
  refine ⟨hsaves, fun order horder target key => ?_⟩
  rw [hsaves.calls_eq] at horder
  exact hdevice.canonical.query_applyAll_perm horder target key

/-- A device with two states that the half fixed effect sets. -/
def shaded : Device := Device.applyAll {} [.renderState 7 3, .renderState 8 5]

/-- The states are set back the other way round, on a device that has another one. -/
theorem restore_in_any_order_halfFixed :
    ∃ s begun, (run {} [.create halfFixed [] none]).state? 0 = some s ∧ shaded.Reachable ∧
      s.begin shaded {} = ⟨[], begun, .ok 1⟩ ∧
      let restored := (Device.applyAll {} [.renderState 9 1]).applyAll begun.finish.calls.reverse
      restored.query (.renderState 7) = .renderState 7 3 ∧
        restored.query (.renderState 8) = .renderState 8 5 ∧
        restored.query (.renderState 9) = .renderState 9 1 := by
  obtain ⟨s, hs, ht, technique, hlookup, hcalls, hanswer, hkeys⟩ :
      ∃ s ∈ (run {} [.create halfFixed [] none]).state? 0, s.effect.technique = some 0 ∧
        ∃ technique ∈ s.linked.techniques[0]?, (s.begin shaded {}).calls = [] ∧
          (s.begin shaded {}).answer = .ok 1 ∧
          technique.passes.flatMap (fun p => (s.linked.recordPlan s.memory p).keys) =
            [.renderState 7, .renderState 8] := by
    decide +kernel
  have hhost : (run {} [.create halfFixed [] none]).Reachable := ⟨_, rfl⟩
  have hreachable : shaded.Reachable := ⟨_, rfl⟩
  have hbegin : s.begin shaded {} = ⟨[], (s.begin shaded {}).state, .ok 1⟩ := by
    rw [← hcalls, ← hanswer]
  have hcaptured : ∀ key, key ∈ (s.begin shaded {}).state.captured ↔
      key ∈ [.renderState 7, .renderState 8] := by
    intro key
    rw [EffectState.mem_captured_begin (hhost.laidOut.proper hs) (hhost.laidOut.counter_lt hs)
      (EffectState.technique_eq_ok.2 ⟨ht, hlookup⟩), ← hkeys, List.mem_flatMap]
    exact and_iff_right rfl
  have hrestored := (restore_in_any_order hreachable hbegin).2 _ (List.reverse_perm _)
    (Device.applyAll {} [.renderState 9 1])
  simp only [hcaptured] at hrestored
  refine ⟨s, _, hs, hreachable, hbegin, ?_, ?_, ?_⟩
  all_goals
    rw [hrestored]
    decide +kernel

end Host

end ShaderEffect
