import ShaderEffect.Proofs.Pass.Dirty
import ShaderEffect.Proofs.Plan.Regular

/-!
# Commits with nothing new

All that makes an action of a pass due are parameters. So while no parameter is written nothing is
due, whatever the pass consists of: expressions store what they compute where nothing looks, and
states that are looked into every time lead to the same plan. A commit then makes no device call.
-/

namespace ShaderEffect

namespace LinkedEffect

variable {e : LinkedEffect} {m : Memory}

/-- Nothing is due while no parameter is dirty. -/
lemma due_eq_nil {since : Nat} {plan : Plan} (hplan : e.Regular plan)
    (hclean : ∀ h, e.Stable h → e.isDirty m h since = false) :
    e.due m ⟨false, since⟩ plan = [] := by
  induction plan with
  | nil => rfl
  | cons event plan ih => cases event with
    | fail error => rfl
    | act inputs action =>
      have hinputs : e.anyDirty m inputs since = false := by
        rw [anyDirty, List.any_eq_false]
        intro h hh
        rw [hclean h ((hplan _ List.mem_cons_self).1 h hh)]
        exact Bool.false_ne_true
      rw [due, if_neg (by simp [hinputs])]
      exact ih fun event hevent => hplan event (List.mem_cons_of_mem _ hevent)

end LinkedEffect

/-! ### Passes with nothing new -/

namespace Operation

/-- Whether a call leaves the pass alone that is begun. -/
def keepsPass : Operation → Bool
  | .begin .. | .endPass | .finish _ | .setTechnique _ => false
  | _ => true

end Operation

namespace EffectState

/-- A pass is begun and has been applied, and no parameter was written since. -/
structure Fresh (s : EffectState) (t p : Nat) (pass : Pass) : Prop where
  technique : s.effect.technique = some t
  active : s.active = some p
  lookup : s.linked.pass? t p = some pass
  answer : (s.linked.passPlan s.memory pass).answer = .ok ()
  clean : ∀ h, s.linked.Stable h → s.linked.isDirty s.memory h (s.appliedAt t p) = false

variable {s s' : EffectState} {t p : Nat} {pass : Pass}

namespace Fresh

/-- What is left alone stays as it was. -/
lemma of_block_eq (h : s.Fresh t p pass) (he : s.linked.Proper) (hlinked : s'.linked = s.linked)
    (htechnique : s'.effect.technique = s.effect.technique) (hactive : s'.active = s.active)
    (happlied : s'.effect.applied = s.effect.applied)
    (hblock : ∀ id, s.linked.Owns id → s'.memory.block id = s.memory.block id) :
    s'.Fresh t p pass := by
  have halike : s.linked.Alike s.memory s'.memory :=
    ⟨⟨fun id hid => by rw [hblock id hid], fun id hid => by rw [hblock id hid]⟩,
      fun id hid _ => hblock id hid⟩
  refine ⟨htechnique.trans h.technique, hactive.trans h.active, hlinked ▸ h.lookup, ?_,
    fun h' hh' => ?_⟩
  · rw [hlinked, LinkedEffect.passPlan_congr he.settled halike (sound_of_pass? he h.lookup)]
    exact h.answer
  · rw [hlinked] at hh' ⊢
    rw [halike.isDirty hh', appliedAt, happlied]
    exact h.clean h' hh'

end Fresh

lemma exists_phase_of_active (hactive : s.active = some p) :
    ∃ saved, s.effect.phase = .begun saved (some p) := by
  rw [active] at hactive
  cases hphase : s.effect.phase with
  | idle =>
    rw [hphase] at hactive
    cases hactive
  | begun saved active =>
    rw [hphase] at hactive
    exact ⟨saved, congrArg _ hactive⟩

lemma commit_of_active (htechnique : s.effect.technique = some t) (hactive : s.active = some p)
    (hlookup : s.linked.pass? t p = some pass) {device : Nat}
    (hdevice : s.isManagerInUse device = false) :
    s.commit device = s.applyPass t p pass false := by
  obtain ⟨technique, ht, hp⟩ := Option.bind_eq_some_iff.1 hlookup
  have hpass : s.passInUse p = .ok (t, pass) := by
    rw [passInUse, EffectState.technique, htechnique]
    simp only [ht, bind, Except.bind, hp]
    rfl
  rw [commit, hactive]
  simp only [hpass, hdevice]
  rfl

end EffectState

namespace Host

variable {host : Host} {i t p : Nat} {s s' : EffectState}

/-- A pass that was just applied is fresh. -/
lemma fresh_of_completes (h : host.LaidOut) (hs : host.state? i = some s) {op : Operation}
    (hcompletes : s.Completes host.device op t p) :
    ∃ pass, (s.perform host.device op).state.Fresh t p pass := by
  have he := h.proper hs
  obtain ⟨pass, hcall⟩ := EffectState.passCall_of_completes he (h.counter_lt hs) hcompletes
  have hlinked : (s.perform host.device op).state.linked = s.linked := by
    rw [EffectState.linked, hcall.applied.effect]
  refine ⟨pass, ?_, ?_, ?_, ?_, fun h' hh' => ?_⟩
  · rw [hcall.applied.effect]
    exact EffectState.technique_of_passOf hcompletes.1
  · rw [hcall.active, if_pos hcompletes.2]
  · exact hlinked ▸ hcall.lookup
  · rw [hlinked, LinkedEffect.passPlan_congr he.settled hcall.applied.alike
      (EffectState.sound_of_pass? he hcall.lookup)]
    exact hcall.applied.answer.1 hcompletes.2
  · -- No block was stamped after the update was drawn at which the pass counts as applied.
    rw [hlinked] at hh' ⊢
    rw [appliedAt_of_completes h hs hcompletes, if_pos ⟨rfl, rfl⟩,
      hcall.applied.alike.isDirty hh', Bool.eq_false_iff]
    intro hdirty
    obtain ⟨id, hid, hlt⟩ := LinkedEffect.isDirty_iff.1 hdirty
    have hle := h.version_le hs (LinkedEffect.owns_of_blockOf? hid)
    omega

/-- What leaves the pass alone that an effect has begun, and writes nothing that the effect can
see. -/
structure Spares (i : Nat) (host : Host) (op : HostOperation) : Prop where
  call : ∀ op', op = .call i op' → op'.keepsPass = true
  writes : ∀ s, host.state? i = some s → ∀ id, s.linked.Owns id → ¬host.Written op id

/-- A call that writes no parameter spares the pass, unless it ends the pass. -/
lemma spares_call {op : Operation} (hpass : op.keepsPass = true) (hvalues : op.setsValues = false) :
    host.Spares i (.call i op) := by
  constructor
  case call =>
    intro op' hcall
    cases hcall
    exact hpass
  case writes =>
    rintro s hs id - ⟨j, op', s', hcall, -, h, hh, -⟩
    cases hcall
    rw [EffectState.written_of_not_setsValues hvalues] at hh
    cases hh

lemma spares_send (d : Nat) (calls : List DeviceCall) : host.Spares i (.send d calls) := by
  constructor
  case call =>
    intro op' hcall
    cases hcall
  case writes =>
    rintro s hs id - ⟨j, op', s', hcall, -⟩
    cases hcall

/-- Blocks that are neither written nor computed do not change. -/
lemma block_perform_of_spares (h : host.LaidOut) (hs : host.state? i = some s) {op : HostOperation}
    (hop : host.Spares i op) (hcomputes : ∀ op', op = .call i op' → op'.computes = false) (id : Nat)
    (hid : s.linked.Owns id) : (host.perform op).memory.block id = s.memory.block id := by
  rcases (later_perform h hs op).unchanged_or_stamped id hid with
    hsame | ⟨hwritten | ⟨-, op', hcall, hop'⟩, -⟩
  · exact hsame
  · exact absurd hwritten (hop.writes s hs id hid)
  · rw [hcomputes op' hcall] at hop'
    cases hop'

/-- A pass that is committed stays fresh. -/
lemma fresh_commit (h : host.LaidOut) (hs : host.state? i = some s) {pass : Pass}
    (hfresh : s.Fresh t p pass) (device : Nat) :
    ∃ pass, (s.perform host.device (.commit device)).state.Fresh t p pass := by
  have happlies : (Operation.commit device).appliesPass = true := rfl
  rcases EffectState.passCall_perform (h.proper hs) (h.counter_lt hs) host.device happlies with
    ⟨e, hrefused⟩ | ⟨t', p', pass', hcall⟩
  · rw [hrefused]
    exact ⟨pass, hfresh⟩
  · have hpassOf : s.passOf (.commit device) = some (t, p) := by
      simp [EffectState.passOf, EffectState.activePass, hfresh.technique, hfresh.active]
    obtain ⟨rfl, rfl⟩ := Prod.mk.inj (Option.some.inj (hcall.passOf.symm.trans hpassOf))
    obtain rfl := Option.some.inj (hcall.lookup.symm.trans hfresh.lookup)
    exact fresh_of_completes h hs ⟨hpassOf, hcall.applied.answer.2 hfresh.answer⟩

/-- A pass stays fresh. -/
lemma fresh_perform (h : host.LaidOut) {op : HostOperation} (hs : host.state? i = some s)
    (hs' : (host.perform op).state? i = some s') (hop : host.Spares i op)
    (hfresh : ∃ pass, s.Fresh t p pass) : ∃ pass, s'.Fresh t p pass := by
  obtain ⟨pass, hfresh⟩ := hfresh
  have he := h.proper hs
  have hc := h.counter_lt hs
  have hlinked := linked_perform h hs hs'
  obtain ⟨s₀, hs₀, hcase⟩ := state?_perform (lt_of_state? hs) hs'
  obtain rfl := Option.some.inj (hs.symm.trans hs₀)
  rcases hcase with ⟨op', rfl, rfl⟩ | ⟨hcall, -, heffect⟩
  · have hkeeps := hop.call op' rfl
    have hblock : op'.computes = false → ∀ id, s.linked.Owns id →
        (s.perform host.device op').state.memory.block id = s.memory.block id :=
      fun hcomputes id hid => by
        rw [← (perform_call hs op').1]
        refine block_perform_of_spares h hs hop (fun op'' heq => ?_) id hid
        obtain ⟨-, rfl⟩ := HostOperation.call.inj heq
        exact hcomputes
    by_cases hvalues : op'.setsValues = true
    · have hstays := (EffectState.stays_leaves_of_setValues hc host.device hvalues).1
      have hcomputes : op'.computes = false := by cases op' <;> first | rfl | cases hvalues
      refine ⟨pass, hfresh.of_block_eq he hlinked hstays.technique ?_ hstays.applied
        (hblock hcomputes)⟩
      rw [EffectState.active, EffectState.active, hstays.phase]
    · cases op' with
      | setManager manager =>
        exact ⟨pass, hfresh.of_block_eq he hlinked rfl rfl rfl (hblock rfl)⟩
      | beginPass device p' =>
        -- A pass is begun already.
        obtain ⟨saved, hphase⟩ := EffectState.exists_phase_of_active hfresh.active
        have hrefused : s.perform host.device (.beginPass device p') = s.refuse .passActive := by
          rw [EffectState.perform, EffectState.beginPass, hphase]
        rw [hrefused]
        exact ⟨pass, hfresh⟩
      | commit device => exact fresh_commit h hs hfresh device
      | begin device flags | endPass | finish device | setTechnique t => cases hkeeps
      | _ => exact absurd rfl hvalues
  · refine ⟨pass, hfresh.of_block_eq he hlinked ?_ ?_ ?_ fun id hid => ?_⟩
    · rw [heffect]
    · rw [EffectState.active, EffectState.active, heffect]
    · rw [heffect]
    · rw [(state?_eq_some.1 hs').2]
      exact block_perform_of_spares h hs hop (fun op' heq => absurd heq (hcall op')) id hid

/-- After a pass was applied, and while no parameter is written that the effect can see and the pass
stays begun, to commit is to make no device call. -/
theorem commit_eq_silent (hhost : host.Reachable) {op : HostOperation}
    (hop : host.Completes i t p op) {ops : List HostOperation}
    (hops : Keeps (fun host op => host.Spares i op) (host.perform op) ops)
    (hs : ((host.perform op).run ops).state? i = some s) {device : Nat}
    (hdevice : s.isManagerInUse device = false) :
    (s.commit device).answer = .ok () ∧ (s.commit device).calls = [] := by
  have hlaid := hhost.laidOut
  obtain ⟨op, s₀, rfl, hs₀, hcompletes⟩ := hop
  have hlaid' := ((hhost.run [.call i op]).run ops).laidOut
  obtain ⟨pass, hfresh⟩ := state_induction (motive := fun _ s => ∃ pass, s.Fresh t p pass)
    (fun h hs hs' hop hfresh => fresh_perform h hs hs' hop hfresh) (hlaid.perform _)
    (state?_perform_call hs₀ op) hops hs (fresh_of_completes hlaid hs₀ hcompletes)
  have he := LaidOut.proper hlaid' hs
  have hsound := EffectState.sound_of_pass? he hfresh.lookup
  have happlied := EffectState.applied_applyPass he (LaidOut.counter_lt hlaid' hs) hfresh.lookup
    false
  have hdue := LinkedEffect.due_eq_nil
    (LinkedEffect.regular_passPlan (m := s.memory) he.settled hsound) hfresh.clean
  rw [EffectState.commit_of_active hfresh.technique hfresh.active hfresh.lookup hdevice]
  refine ⟨happlied.answer.2 hfresh.answer, ?_⟩
  rw [happlied.calls, hdue, if_pos hfresh.answer]
  exact s.work.flushCalls_restart

/-- A pass that was committed already, and whose render state somebody else has set since. -/
theorem commit_dimming_eq_silent :
    ∃ s ∈ (dimming.run [.call 0 (.beginPass 0 0), .call 0 (.commit 0),
        .send 0 [.renderState 7 1]]).state? 0,
      (s.commit 0).answer = .ok () ∧ (s.commit 0).calls = [] := by
  obtain ⟨s₀, hs₀, hbegin⟩ : ∃ s ∈ dimming.state? 0,
      s.Completes dimming.device (.beginPass 0 0) 0 0 := by
    decide +kernel
  obtain ⟨s, hs, hdevice⟩ : ∃ s ∈ (dimming.run [.call 0 (.beginPass 0 0), .call 0 (.commit 0),
      .send 0 [.renderState 7 1]]).state? 0, s.isManagerInUse 0 = false := by
    decide +kernel
  refine ⟨s, hs, commit_eq_silent (reachable_dimmers.run [.call 0 (.begin 0 {})])
    ⟨_, s₀, rfl, hs₀, hbegin⟩ ?_ hs hdevice⟩
  exact ⟨spares_call rfl rfl, spares_send 0 _, trivial⟩

end Host

end ShaderEffect
