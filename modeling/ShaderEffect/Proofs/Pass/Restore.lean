import ShaderEffect.Proofs.Pass.Dirty
import ShaderEffect.Proofs.Plan.Shape

/-!
# Ending sets back what passes changed

To begin an effect is to record once which states its passes can set. While only numbers change, a
pass sets no others, whatever it is given and whether it fails or not; so ending the effect sets
back all that was changed, as far as the flags say so, and nothing else.
-/

namespace ShaderEffect

namespace Operation

/-- Whether a call leaves it as it is that an effect is begun, with its technique and its
manager. -/
def keepsBegun : Operation → Bool
  | .begin .. | .finish _ | .setTechnique _ | .setManager _ => false
  | _ => true

/-- Whether a call leaves all object slots as they are: it sets no other values than numbers. -/
def keepsObjects : Operation → Bool
  | .set _ setter => setter.isNumeric
  | .reset _ | .applyBlock _ => false
  | _ => true

end Operation

namespace EffectState

variable {s s' : EffectState}

/-- An effect stays begun. -/
structure Continued (s s' : EffectState) : Prop where
  technique : s'.effect.technique = s.effect.technique
  manager : s'.effect.manager = s.effect.manager
  saved : s'.effect.phase.saved? = s.effect.phase.saved?

lemma Continued.refl (s : EffectState) : Continued s s := ⟨rfl, rfl, rfl⟩

lemma PassCall.continued {op : Operation} {t p : Nat} {pass : Pass} {r : Response Unit}
    (h : s.PassCall op t p pass r) : Continued s r.state :=
  ⟨by rw [h.applied.effect], by rw [h.applied.effect], h.saved⟩

lemma continued_setActive (s : EffectState) (pass : Option Nat) :
    Continued s (s.setActive pass) := by
  rw [setActive]
  split
  · exact .refl s
  · rename_i hphase
    exact ⟨rfl, rfl, by rw [hphase]; rfl⟩

lemma continued_perform (he : s.linked.Proper) (hc : s.linked.counter < s.memory.counters.size)
    (devices : Nat → Device) {op : Operation} (hop : op.keepsBegun = true) :
    Continued s (s.perform devices op).state := by
  by_cases hvalues : op.setsValues = true
  · have hstays := (stays_leaves_of_setValues hc devices hvalues).1
    exact ⟨hstays.technique, hstays.manager, by rw [hstays.phase]⟩
  by_cases hpass : op.appliesPass = true
  · rcases passCall_perform he hc devices hpass with ⟨e, hrefuse⟩ | ⟨t, p, pass, hcall⟩
    · rw [hrefuse]
      exact .refl s
    · exact hcall.continued
  · cases op with
    | endPass =>
      rw [perform, endPass]
      split
      · exact .refl s
      · exact continued_setActive s none
    | begin device flags | finish device | setTechnique t | setManager manager => cases hop
    | beginPass device p | commit device => exact absurd rfl hpass
    | _ => exact absurd rfl hvalues

lemma technique_congr (hlinked : s'.linked = s.linked)
    (htechnique : s'.effect.technique = s.effect.technique) : s'.technique = s.technique := by
  rw [technique, technique, htechnique, hlinked]

/-- The device calls of a pass have keys of what is attempted of its plan. -/
lemma Applied.mem_keys_of_mem_calls {t p : Nat} {mode : Mode} {plan : Plan} {r : Response Unit}
    (h : s.Applied t p mode plan r) {c : DeviceCall} (hc : c ∈ r.calls) {key : StateKey}
    (hkey : key ∈ c.keys) : key ∈ plan.attempted.keys := by
  rw [h.calls, ← LinkedEffect.due_attempted] at hc
  obtain ⟨a, ha, hkey⟩ := s.work.exists_mem_of_mem_calls hc hkey
  exact Plan.mem_keys.2 ⟨a, LinkedEffect.mem_actions_of_mem_due ha, hkey⟩

end EffectState

namespace Host

variable {host : Host} {i d : Nat} {s s' : EffectState}

/-- What may happen between the begin and the end of an effect: the effect keeps its technique and
has no manager, none of its object slots changes, and nobody else touches the device. -/
structure Undisturbed (i d : Nat) (host : Host) (op : HostOperation) : Prop where
  call : ∀ op', op = .call i op' → op'.keepsBegun = true
  objects : ∀ s, host.state? i = some s → ∀ id, s.linked.Owns id → host.Written op id →
    ((host.perform op).memory.block id).objects = (host.memory.block id).objects
  send : ∀ calls, op ≠ .send d calls
  others : ∀ j op' s, op = .call j op' → j ≠ i → host.state? j = some s →
    s.sendsTo op' ≠ some d

/-- An effect disturbs nothing if it only sets numbers and begins, commits and ends passes. -/
lemma undisturbed_call {op : Operation} (hbegun : op.keepsBegun = true)
    (hobjects : op.keepsObjects = true) : host.Undisturbed i d (.call i op) := by
  constructor
  case call =>
    intro op' hcall
    cases hcall
    exact hbegun
  case objects =>
    rintro s hs id - ⟨j, op', s', hcall, hs', hwritten⟩
    cases hcall
    obtain rfl := Option.some.inj (hs.symm.trans hs')
    cases op with
    | set h setter =>
      rw [(perform_call hs _).1, ← (state?_eq_some.1 hs).2, EffectState.perform]
      cases hset : s.set h setter with
      | error e => rfl
      | ok s'' => exact EffectState.keepsObjects_set hobjects hset id
    | reset h | applyBlock b => cases hobjects
    | _ =>
      -- No other call writes parameters.
      obtain ⟨h, hh, -⟩ := hwritten
      cases hh
  case send =>
    intro calls hcall
    cases hcall
  case others =>
    intro j op' s hcall hj
    cases hcall
    exact absurd rfl hj

/-- While an effect is begun, its device answers as before except for what the passes of the
technique can set, and what was saved stays so. -/
structure Covered (before : Device) (m₀ : Memory) (t : Nat) (technique : Technique)
    (saved : Option Snapshot) (d : Nat) (host : Host) (s : EffectState) : Prop where
  inUse : s.technique = .ok (t, technique)
  manager : s.effect.manager = none
  saved : s.effect.phase.saved? = some saved
  shape : s.linked.SameShape m₀ s.memory
  device : ∀ key, (∀ p ∈ technique.passes, key ∉ (s.linked.recordPlan m₀ p).keys) →
    (host.device d).query key = before.query key

/-- An operation that computes nothing and changes no object of an effect keeps the shape of its
blocks. -/
lemma sameShape_perform (h : host.LaidOut) (hs : host.state? i = some s) {op : HostOperation}
    (hop : host.Undisturbed i d op) (hcomputes : ∀ op', op = .call i op' → op'.computes = false) :
    s.linked.SameShape s.memory (host.perform op).memory := by
  have hlater := later_perform h hs op
  refine ⟨fun id hid => ?_, hlater.size_words⟩
  rcases hlater.unchanged_or_stamped id hid with hsame | ⟨hwritten | ⟨-, op', rfl, hop'⟩, -⟩
  · rw [hsame]
  · rw [(state?_eq_some.1 hs).2]
    exact hop.objects s hs id hid hwritten
  · rw [hcomputes op' rfl] at hop'
    cases hop'

variable {before : Device} {m₀ : Memory} {t : Nat} {technique : Technique}
  {saved : Option Snapshot}

/-- A pass in use is one of the technique. -/
lemma mem_passes_of_passCall (htechnique : s.technique = .ok (t, technique)) {op : Operation}
    {t' p : Nat} {pass : Pass} {r : Response Unit} (hcall : s.PassCall op t' p pass r) :
    pass ∈ technique.passes := by
  obtain ⟨ht, hlookup⟩ := EffectState.technique_eq_ok.1 htechnique
  obtain ⟨technique', hlookup', hp⟩ := Option.bind_eq_some_iff.1 hcall.lookup
  obtain rfl := Option.some.inj (ht.symm.trans (EffectState.technique_of_passOf hcall.passOf))
  obtain rfl := Option.some.inj (hlookup.symm.trans hlookup')
  exact List.mem_of_getElem? hp

/-- A pass sets no other states than were recorded. -/
lemma covered_of_passCall (hselected : s.linked.NoSelectedSamplerStates)
    (hcovered : Covered before m₀ t technique saved d host s) (hs : host.state? i = some s)
    {op : Operation} {t' p : Nat} {pass : Pass}
    (hcall : s.PassCall op t' p pass (s.perform host.device op)) :
    Covered before m₀ t technique saved d (host.perform (.call i op))
      (s.perform host.device op).state := by
  have hlinked : (s.perform host.device op).state.linked = s.linked := by
    rw [EffectState.linked, hcall.applied.effect]
  have hcontinued := hcall.continued
  refine ⟨?_, ?_, ?_, ?_, fun key hkey => ?_⟩
  · rw [EffectState.technique_congr hlinked hcontinued.technique]
    exact hcovered.inUse
  · rw [hcontinued.manager]
    exact hcovered.manager
  · rw [hcontinued.saved]
    exact hcovered.saved
  · rw [hlinked]
    exact hcovered.shape.trans hcall.applied.alike.toSameShape
  · rw [hlinked] at hkey
    rw [(perform_call hs op).2.2]
    split
    · rw [Device.query_applyAll_of_forall_notMem _ fun c hc hmem => ?_]
      · exact hcovered.device key hkey
      · exact hkey pass (mem_passes_of_passCall hcovered.inUse hcall)
          (LinkedEffect.keys_attempted_passPlan_subset hcovered.shape
            (hselected.sameChoicesBelow _) (hcall.applied.mem_keys_of_mem_calls hc hmem))
    · exact hcovered.device key hkey

/-- The device of an effect stays covered. -/
lemma covered_perform (h : host.LaidOut) (hselected : s.linked.NoSelectedSamplerStates)
    {op : HostOperation} (hs : host.state? i = some s)
    (hs' : (host.perform op).state? i = some s') (hop : host.Undisturbed i d op)
    (hcovered : Covered before m₀ t technique saved d host s) :
    Covered before m₀ t technique saved d (host.perform op) s' := by
  have hlinked := linked_perform h hs hs'
  -- Unless the effect applies a pass, it stays begun and its device is left alone.
  have hkeep : EffectState.Continued s s' →
      (∀ op', op = .call i op' → op'.computes = false ∧ s.sendsTo op' = none) →
      Covered before m₀ t technique saved d (host.perform op) s' := by
    intro hcontinued hcall
    have hdevice := device_perform_of_others hs hop.send hop.others
      fun op' heq => (hcall op' heq).2
    refine ⟨?_, ?_, ?_, ?_, fun key hkey => ?_⟩
    · rw [EffectState.technique_congr hlinked hcontinued.technique]
      exact hcovered.inUse
    · rw [hcontinued.manager]
      exact hcovered.manager
    · rw [hcontinued.saved]
      exact hcovered.saved
    · rw [hlinked, (state?_eq_some.1 hs').2]
      exact hcovered.shape.trans (sameShape_perform h hs hop fun op' heq => (hcall op' heq).1)
    · rw [hdevice]
      exact hcovered.device key (hlinked ▸ hkey)
  obtain ⟨s₀, hs₀, ⟨op', rfl, rfl⟩ | ⟨hcall, -, heffect⟩⟩ := state?_perform (lt_of_state? hs) hs'
  · obtain rfl := Option.some.inj (hs.symm.trans hs₀)
    have hbegun := hop.call op' rfl
    have hcontinued := EffectState.continued_perform (h.proper hs) (h.counter_lt hs) host.device
      hbegun
    by_cases hpass : op'.appliesPass = true
    · rcases EffectState.passCall_perform (h.proper hs) (h.counter_lt hs) host.device hpass with
        ⟨e, hrefuse⟩ | ⟨t', p, pass, hcall⟩
      · have hdevice := device_perform_of_refused (d := d) hs hrefuse
        rw [hrefuse]
        exact { hcovered with device := fun key hkey => hdevice ▸ hcovered.device key hkey }
      · exact covered_of_passCall hselected hcovered hs hcall
    · refine hkeep hcontinued fun op'' heq => ?_
      obtain ⟨-, rfl⟩ := HostOperation.call.inj heq
      cases op' <;> first | exact ⟨rfl, rfl⟩ | exact absurd rfl hpass | cases hbegun
  · obtain rfl := Option.some.inj (hs.symm.trans hs₀)
    exact hkeep ⟨by rw [heffect], by rw [heffect], by rw [heffect]⟩
      fun op' heq => absurd heq (hcall op')

/-- When an effect is begun, its device is as before, and the states are saved that its passes can
set and that the flags do not leave out. -/
lemma covered_begin (h : host.LaidOut) (hs : host.state? i = some s)
    (hmanager : s.effect.manager = none) {flags : BeginFlags}
    (hbegin : (s.perform host.device (.begin d flags)).answer = .ok ()) :
    ∃ t technique saved, Covered (host.device d) s.memory t technique saved d
        (host.perform (.call i (.begin d flags))) (s.perform host.device (.begin d flags)).state ∧
      (flags.skipAll = true ∧ saved = none ∨ ∃ calls,
        saved = some ((host.device d).save flags calls) ∧
        ∀ p ∈ technique.passes, ∀ key ∈ (s.linked.recordPlan s.memory p).keys,
          ∃ c ∈ calls, key ∈ c.keys) := by
  rw [EffectState.perform, Response.forget] at hbegin
  rcases EffectState.begun_begin (h.proper hs) (h.counter_lt hs) (host.device d) flags with
    ⟨e, hrefuse⟩ | hbegun
  · rw [hrefuse] at hbegin
    cases hbegin
  obtain ⟨t, technique, htechnique⟩ := hbegun.technique
  obtain ⟨saved', lights, material, heffect⟩ := hbegun.effect
  have hlinked : (s.begin (host.device d) flags).state.linked = s.linked := by
    rw [EffectState.linked, heffect]
  have hcovered : ∀ saved, (s.begin (host.device d) flags).state.effect.phase.saved? = some saved →
      Covered (host.device d) s.memory t technique saved d
        (host.perform (.call i (.begin d flags)))
        (s.perform host.device (.begin d flags)).state := by
    refine fun saved hsaved => ⟨?_, ?_, hsaved, ?_, fun key _ => ?_⟩
    · rw [← htechnique]
      exact EffectState.technique_congr hlinked (congrArg Effect.technique heffect :)
    · exact (congrArg Effect.manager heffect).trans hmanager
    · exact hlinked.symm ▸ hbegun.alike.toSameShape
    · rw [(perform_call hs _).2.2, if_neg fun h => by cases h]
  rcases hbegun.saved with ⟨hskip, hsaved⟩ | ⟨-, calls, hsaved, hkeys⟩
  · exact ⟨t, technique, none, hcovered none hsaved, .inl ⟨hskip, rfl⟩⟩
  · refine ⟨t, technique, _, hcovered _ hsaved, .inr ⟨calls, rfl, fun p hp key hkey => ?_⟩⟩
    exact hkeys t technique htechnique key ⟨p, hp, Plan.mem_keys.1 hkey⟩

/-- To end an effect is to make its device answer as before it was begun for all states that the
flags save, and as just before it was ended for all others. -/
theorem query_finish (hhost : host.Reachable) (hs : host.state? i = some s)
    (hmanager : s.effect.manager = none) (hselected : s.linked.NoSelectedSamplerStates)
    {flags : BeginFlags} (hbegin : (s.perform host.device (.begin d flags)).answer = .ok ())
    {ops : List HostOperation}
    (hops : Keeps (fun host op => host.Undisturbed i d op)
      (host.perform (.call i (.begin d flags))) ops)
    (hs' : ((host.perform (.call i (.begin d flags))).run ops).state? i = some s') :
    s'.finish.answer = .ok () ∧
      ∀ key, ((((host.perform (.call i (.begin d flags))).run ops).perform
        (.call i (.finish d))).device d).query key =
          if flags.saves key then (host.device d).query key
          else (((host.perform (.call i (.begin d flags))).run ops).device d).query key := by
  have hlaid := hhost.laidOut
  obtain ⟨t, technique, saved, hcovered, hsaved⟩ := covered_begin hlaid hs hmanager hbegin
  have hs₁ := state?_perform_call hs (.begin d flags)
  have hlinked := linked_perform hlaid hs hs₁
  obtain ⟨hlinked', hcovered'⟩ := state_induction
    (motive := fun host₁ s₁ => s₁.linked = s.linked ∧
      Covered (host.device d) s.memory t technique saved d host₁ s₁)
    (fun h hs hs' hop hm => ⟨(linked_perform h hs hs').trans hm.1,
      covered_perform h (hm.1 ▸ hselected) hs hs' hop hm.2⟩)
    (hlaid.perform _) hs₁ hops hs' ⟨hlinked, hcovered⟩
  obtain ⟨active, hphase⟩ : ∃ active, s'.effect.phase = .begun saved active := by
    have hphase := hcovered'.saved
    cases h : s'.effect.phase with
    | idle =>
      rw [h] at hphase
      cases hphase
    | begun saved' active =>
      rw [h] at hphase
      exact ⟨active, by rw [Option.some.inj hphase]⟩
  have hfinish : s'.finish =
      ⟨saved.getD [], { s' with effect := { s'.effect with phase := .idle } }, .ok ()⟩ := by
    rw [EffectState.finish, hphase]
  refine ⟨by rw [hfinish], fun key => ?_⟩
  rw [(perform_call hs' (.finish d)).2.2, if_pos (by rfl), EffectState.perform,
    hfinish]
  rcases hsaved with ⟨hskip, rfl⟩ | ⟨calls, rfl, hkeys⟩
  · -- Nothing was saved, and no state is one that the flags save.
    rw [if_neg (by simp [BeginFlags.saves, hskip])]
    rfl
  · obtain ⟨use, hlayout⟩ := hlaid
    rw [Option.getD_some, (hlayout.devices d).query_applyAll_save]
    by_cases hflags : flags.saves key = true
    · rw [if_pos hflags]
      split
      · rfl
      · -- No pass can set the state.
        rename_i hkey
        refine hcovered'.device key fun p hp hmem => hkey (mem_savedKeys.2 ⟨hflags, ?_⟩)
        exact hkeys p hp key (hlinked' ▸ hmem)
    · rw [if_neg hflags, if_neg fun hkey => hflags (mem_savedKeys.1 hkey).1]

/-- While an effect is begun the number is set and committed, which changes the device, and a pass
is begun that is not there. Ending the effect sets the device back. -/
theorem query_finish_dimming :
    ((dimming.run [.call 0 (.beginPass 0 1), .call 0 (.beginPass 0 0), .call 0 brighten,
      .call 0 (.commit 0)]).device 0).query (.renderState 7) = .renderState 7 0x3F800000 ∧
    ∀ key, (((dimming.run [.call 0 (.beginPass 0 1), .call 0 (.beginPass 0 0), .call 0 brighten,
      .call 0 (.commit 0), .call 0 .endPass]).perform (.call 0 (.finish 0))).device 0).query key =
        (dimmers.device 0).query key := by
  constructor
  · decide +kernel
  · intro key
    obtain ⟨s, hs, hmanager, hselected, hbegin⟩ : ∃ s ∈ dimmers.state? 0,
        s.effect.manager = none ∧ s.linked.NoSelectedSamplerStates ∧
          (s.perform dimmers.device (.begin 0 {})).answer = .ok () := by
      decide +kernel
    obtain ⟨s', hs'⟩ : ∃ s', (dimming.run [.call 0 (.beginPass 0 1), .call 0 (.beginPass 0 0),
        .call 0 brighten, .call 0 (.commit 0), .call 0 .endPass]).state? 0 = some s' :=
      Option.isSome_iff_exists.1 (by decide +kernel)
    have hops : Keeps (fun host op => host.Undisturbed 0 0 op) dimming
        [.call 0 (.beginPass 0 1), .call 0 (.beginPass 0 0), .call 0 brighten, .call 0 (.commit 0),
          .call 0 .endPass] :=
      ⟨undisturbed_call rfl rfl, undisturbed_call rfl rfl, undisturbed_call rfl rfl,
        undisturbed_call rfl rfl, undisturbed_call rfl rfl, trivial⟩
    exact (query_finish reachable_dimmers hs hmanager hselected hbegin hops hs').2 key

end Host

end ShaderEffect
