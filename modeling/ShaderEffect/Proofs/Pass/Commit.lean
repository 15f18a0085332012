import ShaderEffect.Proofs.Pass.Silent
import ShaderEffect.Proofs.Plan.Standing
import ShaderEffect.Program.Encode

/-!
# Commits agree with full applications

To commit is to apply again only what became due. That leaves the device as if the whole pass had
been applied again, provided that no two states of the pass address the same device state and that
two things are left alone which a commit does not look at.

* A state that sets a sampler is no reason to apply the states of the sampler. So if it takes the
  sampler from an array it has to choose the same one at every commit as when the pass was begun.
* A commit that fails keeps the light and material fields it assigned and does not send them. So
  these have to be among the fields that the last commit reaches.
-/

namespace ShaderEffect

/-! ### What is not due -/

namespace LinkedEffect

variable {e : LinkedEffect} {m m' : Memory} {plan plan' : Plan} {a : Action}

/-- What is not due in a later plan was not due before. -/
lemma NotDue.of_lasting {since : Nat} (h : e.NotDue m' ⟨false, since⟩ plan' a)
    (hregular : e.Regular plan') (hm : e.Continues since m m')
    (hlasting : e.Lasting since m' plan plan') : e.NotDue m ⟨false, since⟩ plan a := by
  obtain ⟨inputs, hmem, hclean⟩ := h
  rw [Bool.false_or] at hclean
  refine ⟨inputs, hlasting inputs a hmem hclean, ?_⟩
  rw [Bool.false_or, anyDirty, List.any_eq_false]
  intro h hh
  have hclean' := isDirty_of_anyDirty hclean hh
  have hsame := hm.clean h ((hregular _ hmem).1 h hh) hclean'
  rw [isDirty, version_congr hsame] at hclean'
  rw [isDirty, hclean']
  exact Bool.false_ne_true

lemma NotDue.of_alike {mode : Mode} (h : e.NotDue m' mode plan a) (hregular : e.Regular plan)
    (hm : e.Alike m m') : e.NotDue m mode plan a := by
  obtain ⟨inputs, hmem, hclean⟩ := h
  rw [hm.anyDirty (hregular _ hmem).1] at hclean
  exact ⟨inputs, hmem, hclean⟩

lemma not_notDue_of_full {since : Nat} : ¬e.NotDue m ⟨true, since⟩ plan a := by
  rintro ⟨inputs, -, hclean⟩
  cases hclean

/-- The same samplers are set in memories that are alike. -/
lemma SameChoices.trans_alike {m₀ : Memory} {pass : Pass} (h : e.SameChoices pass m₀ m)
    (hsettled : e.Settled) (hpass : ∀ s ∈ pass.states, e.Sound s) (hm : e.Alike m m') :
    e.SameChoices pass m₀ m' := by
  intro s info hs hinfo hcls
  have hsound : e.Sound s := by
    rcases hs with hs | ⟨h, p, hp, hs⟩
    · exact hpass s hs
    · exact hsettled.nodes h p hp s hs
  rw [chosen, stateValue_congr hm hsound]
  exact h s info hs hinfo hcls

lemma SameChoices.symm_trans {m₀ : Memory} {pass : Pass} (h : e.SameChoices pass m₀ m)
    (h' : e.SameChoices pass m₀ m') : e.SameChoices pass m m' := fun s info hs hinfo hcls =>
  (h' s info hs hinfo hcls).trans (h s info hs hinfo hcls).symm

end LinkedEffect

/-! ### Passes -/

namespace EffectState

variable {s s' : EffectState} {t p : Nat} {mode : Mode} {plan : Plan} {r : Response Unit}

namespace Applied

/-- The fields that a pass leaves. -/
lemma fields (h : s.Applied t p mode plan r) :
    r.state.work.fields = s.work.fields.assignAll (s.linked.due s.memory mode plan) := by
  have hfields := s.work.restart.fields_assignAll (s.linked.due s.memory mode plan)
  rw [EffectState.work, h.effect]
  exact hfields

variable {d : Device} {owed : List Cell}

/-- After a pass was applied everything in it stands. -/
lemma standing (h : s.Applied t p mode plan r) (hanswer : r.answer = .ok ())
    (hregular : s.linked.Regular plan) (hdistinct : plan.Distinct)
    (hd : Standing d s.work.fields owed (s.linked.NotDue s.memory mode plan)) :
    Standing (d.applyAll r.calls) r.state.work.fields owed (· ∈ plan.actions) := by
  have hok := h.answer.1 hanswer
  rw [h.fields, h.calls, if_pos hok]
  exact hd.succeed (LinkedEffect.splits_due hregular hdistinct)
    fun a ha => LinkedEffect.mem_due_or_notDue hok ha

/-- After a pass failed what was not due stands. -/
lemma standing_of_error (h : s.Applied t p mode plan r) (hanswer : r.answer ≠ .ok ())
    (hregular : s.linked.Regular plan) (hdistinct : plan.Distinct)
    (howed : ∀ a ∈ s.linked.due s.memory mode plan, ∀ cell ∈ a.cells, cell.sentWith.isSome →
      cell ∈ owed)
    (hd : Standing d s.work.fields owed (s.linked.NotDue s.memory mode plan)) :
    Standing (d.applyAll r.calls) r.state.work.fields owed
      (s.linked.NotDue s.memory mode plan) := by
  rw [h.fields, h.calls, if_neg fun hok => hanswer (h.answer.2 hok), List.append_nil]
  exact hd.fail (LinkedEffect.splits_due hregular hdistinct) howed

end Applied

/-- What a commit asks for: no two states of the pass address the same device state, states that set
samplers set the same ones as in an earlier memory, and if the commit fails, the fields that it
assigned are among some. -/
structure Steady (s : EffectState) (t p : Nat) (pass : Pass) (m₀ : Memory) (owed : List Cell) :
    Prop where
  distinct : (s.linked.passPlan s.memory pass).Distinct
  choices : s.linked.SameChoices pass m₀ s.memory
  fields : (s.linked.passPlan s.memory pass).answer ≠ .ok () →
    ∀ a ∈ s.linked.due s.memory ⟨false, s.appliedAt t p⟩ (s.linked.passPlan s.memory pass),
      ∀ cell ∈ a.cells, cell.sentWith.isSome → cell ∈ owed

end EffectState

namespace Host

variable {host : Host} {i r t p : Nat} {s s' : EffectState} {pass : Pass} {m₀ : Memory}
  {owed : List Cell}

/-- What may happen between the begin of a pass and a commit: the effect writes parameters and
commits to one device, and nobody else touches that device. -/
structure Exclusive (i r : Nat) (host : Host) (op : HostOperation) : Prop where
  call : ∀ op', op = .call i op' → op'.setsValues = true ∨ ∃ d, op' = .commit d
  parameters : ∀ op' s, op = .call i op' → host.state? i = some s →
    ∀ h ∈ s.written op', s.linked.IsParameter h
  receiver : ∀ d s, op = .call i (.commit d) → host.state? i = some s → s.receiver d = r
  send : ∀ calls, op ≠ .send r calls
  others : ∀ j op' s, op = .call j op' → j ≠ i → host.state? j = some s →
    s.sendsTo op' ≠ some r

lemma exclusive_setValues {op : Operation} (hvalues : op.setsValues = true)
    (hparameters : ∀ s, host.state? i = some s → ∀ h ∈ s.written op, s.linked.IsParameter h) :
    host.Exclusive i r (.call i op) := by
  constructor
  case call =>
    intro op' hcall
    cases hcall
    exact .inl hvalues
  case parameters =>
    intro op' s hcall hs
    cases hcall
    exact hparameters s hs
  case receiver =>
    intro d s hcall
    cases hcall
    cases hvalues
  case send =>
    intro calls hcall
    cases hcall
  case others =>
    intro j op' s hcall hj
    cases hcall
    exact absurd rfl hj

lemma exclusive_commit {d : Nat} (hreceiver : ∀ s, host.state? i = some s → s.receiver d = r) :
    host.Exclusive i r (.call i (.commit d)) := by
  constructor
  case call =>
    intro op' hcall
    cases hcall
    exact .inr ⟨d, rfl⟩
  case parameters =>
    intro op' s hcall hs h hh
    cases hcall
    cases hh
  case receiver =>
    intro d' s hcall hs
    cases hcall
    exact hreceiver s hs
  case send =>
    intro calls hcall
    cases hcall
  case others =>
    intro j op' s hcall hj
    cases hcall
    exact absurd rfl hj

/-- A pass is begun, and all of it stands that will not be due at the next commit. -/
structure Upheld (r t p : Nat) (pass : Pass) (m₀ : Memory) (owed : List Cell) (host : Host)
    (s : EffectState) : Prop where
  technique : s.effect.technique = some t
  active : s.active = some p
  lookup : s.linked.pass? t p = some pass
  standing : ∃ m, Standing (host.device r) s.work.fields owed
      (s.linked.NotDue m ⟨false, s.appliedAt t p⟩ (s.linked.passPlan m pass)) ∧
    s.linked.Continues (s.appliedAt t p) m s.memory ∧ s.linked.SameChoices pass m₀ m

/-! ### Writes -/

/-- Writes to parameters do not touch the value of a state. -/
lemma not_written_of_mem_states (h : host.LaidOut) (hs : host.state? i = some s)
    {op : HostOperation} (hop : host.Exclusive i r op) {state : StateEntry}
    (hstate : state ∈ s.linked.states) {id : Nat} (hid : s.linked.blockOf? state.param = some id) :
    ¬host.Written op id := by
  rintro ⟨j, op', s₁, rfl, hs₁, h', hh', hid'⟩
  by_cases hij : j = i
  · subst hij
    obtain rfl := Option.some.inj (hs.symm.trans hs₁)
    exact (h.proper hs).blockOf?_ne_of_isParameter (hop.parameters op' s rfl hs h' hh') hstate hid'
      hid
  · -- The block belongs to this effect alone.
    obtain ⟨use, hlayout, hfits⟩ := h.fits hs
    have hfits₁ := hlayout.effects j s₁.effect (state?_eq_some.1 hs₁).1
    obtain ⟨root, hroot, hid⟩ := LinkedEffect.blockOf?_eq_some_root.1 hid
    obtain ⟨root', -, hid'⟩ := LinkedEffect.blockOf?_eq_some_root.1 hid'
    have huse := (hfits.uses root id hid).2.value ⟨state, hstate, hroot⟩
    have huse' := (hfits₁.uses root' id hid').2
    by_cases hvalue : s₁.linked.IsValueRoot root'
    · have heq := huse.symm.trans (huse'.value hvalue)
      exact hij (Prod.mk.inj (Option.some.inj heq)).1.symm
    · rw [huse'.shared hvalue] at huse
      cases huse

/-- While parameters are written, what changes is stamped. -/
lemma continues_perform (h : host.LaidOut) (hs : host.state? i = some s) {op : HostOperation}
    (hop : host.Exclusive i r op) (hcomputes : ∀ op', op = .call i op' → op'.computes = false)
    {since : Nat} (hsince : since ≤ s.memory.counter s.linked.counter) {m : Memory}
    (hm : s.linked.Continues since m s.memory) :
    s.linked.Continues since m (host.perform op).memory := by
  have hlater := later_perform h hs op
  have hchange : ∀ id, s.linked.Owns id → (host.perform op).memory.block id = s.memory.block id ∨
      host.Written op id ∧ since < ((host.perform op).memory.block id).version := by
    intro id hid
    refine (hlater.unchanged_or_stamped id hid).imp_right fun ⟨hcause, hlt⟩ => ?_
    refine ⟨hcause.resolve_right ?_, Nat.lt_of_le_of_lt hsince hlt⟩
    rintro ⟨-, op', hcall, hop'⟩
    rw [hcomputes op' hcall] at hop'
    cases hop'
  have hvalue : ∀ state ∈ s.linked.states, ∀ id, s.linked.blockOf? state.param = some id →
      (host.perform op).memory.block id = s.memory.block id := fun state hstate id hid =>
    (hchange id (LinkedEffect.owns_of_blockOf? hid)).resolve_right fun hwritten =>
      not_written_of_mem_states h hs hop hstate hid hwritten.1
  refine ⟨fun h' hh' hclean id hid => ?_, fun place state hplace hsource id hid => ?_,
    fun id hid => ?_⟩
  · rcases hchange id (LinkedEffect.owns_of_blockOf? hid) with hsame | ⟨-, hlt⟩
    · rw [hsame]
      refine hm.clean h' hh' ?_ id hid
      rw [LinkedEffect.isDirty, LinkedEffect.version_congr] at hclean
      · exact hclean
      · intro id' hid'
        obtain rfl := Option.some.inj (hid.symm.trans hid')
        exact hsame
    · rw [LinkedEffect.isDirty_iff.2 ⟨id, hid, hlt⟩] at hclean
      cases hclean
  · rw [hvalue state (LinkedEffect.mem_states_of_stateAt? hplace) id hid]
    exact hm.own place state hplace hsource id hid
  · obtain ⟨place, state, p, hplace, hsource, hblock⟩ := hid
    rw [hvalue state (LinkedEffect.mem_states_of_stateAt? hplace) id hblock]
    exact hm.computed id ⟨place, state, p, hplace, hsource, hblock⟩

/-! ### Runs -/

/-- Passes are not stamped later than the counter of their effect. -/
lemma appliedAt_le (h : host.LaidOut) (hs : host.state? i = some s) (t p : Nat) :
    s.appliedAt t p ≤ s.memory.counter s.linked.counter := by
  obtain ⟨use, -, hfits⟩ := h.fits hs
  rw [EffectState.appliedAt]
  cases hstamps : s.effect.applied[t]? with
  | none => exact Nat.zero_le _
  | some stamps => cases hstamp : stamps[p]? with
    | none => simp [hstamp]
    | some stamp =>
      rw [(state?_eq_some.1 hs).2]
      simp only [Option.bind_some, hstamp, Option.getD_some]
      exact hfits.stamps stamps (List.mem_of_getElem? hstamps) stamp (List.mem_of_getElem? hstamp)

/-- After a pass was applied all of it stands. -/
lemma upheld_of_completes (h : host.LaidOut) (hs : host.state? i = some s) {op : Operation}
    (hcompletes : s.Completes host.device op t p) (hlookup : s.linked.pass? t p = some pass)
    (hsends : s.sendsTo op = some r) (hdistinct : (s.linked.passPlan s.memory pass).Distinct)
    (hchoices : s.linked.SameChoices pass m₀ s.memory)
    (hd : Standing (host.device r) s.work.fields owed (s.linked.NotDue s.memory
      ⟨op.isFull, s.appliedAt t p⟩ (s.linked.passPlan s.memory pass))) :
    Upheld r t p pass m₀ owed (host.perform (.call i op)) (s.perform host.device op).state := by
  have he := h.proper hs
  obtain ⟨pass', hcall⟩ := EffectState.passCall_of_completes he (h.counter_lt hs) hcompletes
  obtain rfl := Option.some.inj (hcall.lookup.symm.trans hlookup)
  have hlinked : (s.perform host.device op).state.linked = s.linked := by
    rw [EffectState.linked, hcall.applied.effect]
  have hsound := EffectState.sound_of_pass? he hlookup
  have hplan := LinkedEffect.passPlan_congr he.settled hcall.applied.alike hsound
  refine ⟨?_, ?_, hlinked ▸ hlookup, (s.perform host.device op).state.memory, ?_, ?_, ?_⟩
  · rw [hcall.applied.effect]
    exact EffectState.technique_of_passOf hcompletes.1
  · rw [hcall.active, if_pos hcompletes.2]
  · have hstanding := hcall.applied.standing hcompletes.2
      (LinkedEffect.regular_passPlan he.settled hsound) hdistinct hd
    rw [(perform_call hs op).2.2, if_pos hsends, hlinked, hplan]
    exact hstanding.mono fun a hnotDue => Plan.mem_actions.2 (hnotDue.imp fun _ h => h.1)
  · rw [hlinked]
    exact .refl _ _
  · rw [hlinked]
    exact hchoices.trans_alike he.settled hsound hcall.applied.alike

namespace Upheld

/-- At the next commit all stands that is not due. -/
lemma standing_notDue (h : Upheld r t p pass m₀ owed host s) (hlaid : host.LaidOut)
    (hs : host.state? i = some s) (hchoices : s.linked.SameChoices pass m₀ s.memory) :
    Standing (host.device r) s.work.fields owed (s.linked.NotDue s.memory
      ⟨false, s.appliedAt t p⟩ (s.linked.passPlan s.memory pass)) := by
  have he := hlaid.proper hs
  have hsound := EffectState.sound_of_pass? he h.lookup
  obtain ⟨m, hstanding, hcontinues, hchoices'⟩ := h.standing
  refine hstanding.mono fun a ha => ?_
  refine ha.of_lasting (LinkedEffect.regular_passPlan he.settled hsound) hcontinues ?_
  refine LinkedEffect.lasting_passPlan he.settled hcontinues he.membersShare
    (hchoices'.symm_trans hchoices) hsound fun state hstate => ?_
  obtain ⟨technique, htechnique, hmem⟩ := LinkedEffect.mem_of_pass? h.lookup
  exact Link.exists_stateAt_of_mem_pass (l := ⟨s.linked.tree, s.linked.techniques, .empty, 0⟩)
    htechnique hmem hstate

/-- An operation that applies no pass leaves standing what stands. -/
lemma of_eq (h : Upheld r t p pass m₀ owed host s) (hlaid : host.LaidOut)
    (hs : host.state? i = some s) {op : HostOperation} (hs' : (host.perform op).state? i = some s')
    (hop : host.Exclusive i r op)
    (hcall : ∀ op', op = .call i op' → op'.computes = false ∧ s.sendsTo op' = none)
    (heffect : EffectState.Stays s s') : Upheld r t p pass m₀ owed (host.perform op) s' := by
  have hlinked := linked_perform hlaid hs hs'
  have happlied := EffectState.appliedAt_eq_of_applied_eq heffect.applied t p
  have hdevice := device_perform_of_others hs hop.send hop.others fun op' heq => (hcall op' heq).2
  have hactive : s'.active = s.active := by
    rw [EffectState.active, EffectState.active, heffect.phase]
  have hfields : s'.work.fields = s.work.fields := by
    rw [EffectState.work, Work.fields, heffect.lights, heffect.material]
    rfl
  obtain ⟨m, hstanding, hcontinues, hchoices⟩ := h.standing
  refine ⟨heffect.technique.trans h.technique, hactive.trans h.active, hlinked ▸ h.lookup, m, ?_,
    ?_, hlinked ▸ hchoices⟩
  · rw [hdevice, hfields, happlied, hlinked]
    exact hstanding
  · rw [happlied, hlinked, (state?_eq_some.1 hs').2]
    exact continues_perform hlaid hs hop (fun op' heq => (hcall op' heq).1)
      (appliedAt_le hlaid hs t p) hcontinues

/-- A commit makes stand what is due, or fails and leaves standing what is not. -/
lemma commit (h : Upheld r t p pass m₀ owed host s) (hlaid : host.LaidOut)
    (hs : host.state? i = some s) {d : Nat} (hreceiver : s.receiver d = r)
    (hsteady : s.Steady t p pass m₀ owed) :
    Upheld r t p pass m₀ owed (host.perform (.call i (.commit d)))
      (s.perform host.device (.commit d)).state := by
  have he := hlaid.proper hs
  have hsound := EffectState.sound_of_pass? he h.lookup
  have hregular := LinkedEffect.regular_passPlan (m := s.memory) he.settled hsound
  have hsends : s.sendsTo (.commit d) = some r := congrArg some hreceiver
  have hd := h.standing_notDue hlaid hs hsteady.choices
  have happlies : (Operation.commit d).appliesPass = true := rfl
  rcases EffectState.passCall_perform he (hlaid.counter_lt hs) host.device happlies with
    ⟨e, hrefuse⟩ | ⟨t', p', pass', hcall⟩
  · rw [hrefuse]
    exact { h with standing := (device_perform_of_refused (d := r) hs hrefuse).symm ▸ h.standing }
  have hpassOf : s.passOf (.commit d) = some (t, p) := by
    simp [EffectState.passOf, EffectState.activePass, h.technique, h.active]
  obtain ⟨rfl, rfl⟩ := Prod.mk.inj (Option.some.inj (hcall.passOf.symm.trans hpassOf))
  obtain rfl := Option.some.inj (hcall.lookup.symm.trans h.lookup)
  by_cases hanswer : (s.perform host.device (.commit d)).answer = .ok ()
  · exact upheld_of_completes hlaid hs ⟨hpassOf, hanswer⟩ h.lookup hsends hsteady.distinct
      hsteady.choices hd
  have hplanAnswer : (s.linked.passPlan s.memory pass').answer ≠ .ok () := fun hok =>
    hanswer (hcall.applied.answer.2 hok)
  have hlinked : (s.perform host.device (.commit d)).state.linked = s.linked := by
    rw [EffectState.linked, hcall.applied.effect]
  have happlied :
      (s.perform host.device (.commit d)).state.appliedAt t' p' = s.appliedAt t' p' := by
    refine EffectState.appliedAt_eq_of_applied_eq ?_ t' p'
    rw [hcall.applied.effect, if_neg hplanAnswer]
  have halike := hcall.applied.alike
  refine ⟨?_, ?_, hlinked ▸ h.lookup, (s.perform host.device (.commit d)).state.memory, ?_, ?_, ?_⟩
  · rw [hcall.applied.effect]
    exact h.technique
  · rw [hcall.active, if_neg hanswer]
    exact h.active
  · rw [(perform_call hs (.commit d)).2.2, if_pos hsends, happlied, hlinked,
      LinkedEffect.passPlan_congr he.settled halike hsound]
    exact (hcall.applied.standing_of_error hanswer hregular hsteady.distinct
      (hsteady.fields hplanAnswer) hd).mono fun a ha => ha.of_alike hregular halike
  · rw [happlied, hlinked]
    exact .refl _ _
  · rw [hlinked]
    exact hsteady.choices.trans_alike he.settled hsound halike

/-- A commit that succeeds does what applying the whole pass would do. -/
lemma query_perform_commit (h : Upheld r t p pass m₀ (s.linked.passPlan s.memory pass).cells host s)
    (hlaid : host.LaidOut) (hs : host.state? i = some s) {d : Nat} (hreceiver : s.receiver d = r)
    (hdistinct : (s.linked.passPlan s.memory pass).Distinct)
    (hchoices : s.linked.SameChoices pass m₀ s.memory) (hcommit : (s.commit d).answer = .ok ()) :
    (s.applyPass t p pass true).answer = .ok () ∧
      ∀ key, ((host.perform (.call i (.commit d))).device r).query key =
        ((host.device r).applyAll (s.applyPass t p pass true).calls).query key := by
  have he := hlaid.proper hs
  have hc := hlaid.counter_lt hs
  have hsound := EffectState.sound_of_pass? he h.lookup
  have hregular := LinkedEffect.regular_passPlan (m := s.memory) he.settled hsound
  have hsends : s.sendsTo (.commit d) = some r := congrArg some hreceiver
  have hpassOf : s.passOf (.commit d) = some (t, p) := by
    simp [EffectState.passOf, EffectState.activePass, h.technique, h.active]
  have hcompletes : s.Completes host.device (.commit d) t p := ⟨hpassOf, hcommit⟩
  obtain ⟨pass', hcall⟩ := EffectState.passCall_of_completes he hc hcompletes
  obtain rfl := Option.some.inj (hcall.lookup.symm.trans h.lookup)
  have hfull := EffectState.applied_applyPass he hc hcall.lookup true
  have hok := hcall.applied.answer.1 hcommit
  have hdue : s.linked.due s.memory ⟨true, s.appliedAt t p⟩ (s.linked.passPlan s.memory pass') =
      (s.linked.passPlan s.memory pass').actions := LinkedEffect.due_full rfl hok
  refine ⟨hfull.answer.2 hok, fun key => ?_⟩
  rw [(perform_call hs (.commit d)).2.2, if_pos hsends, hcall.applied.calls, hfull.calls,
    if_pos hok, if_pos hok, hdue]
  exact (h.standing_notDue hlaid hs hchoices).query_eq (LinkedEffect.splits_due hregular hdistinct)
    (fun a ha => LinkedEffect.mem_due_or_notDue hok ha)
    (fun a ha b hb => hdistinct.eq_or_disjoint ha hb)
    (fun cell hcell => Plan.mem_cells.1 hcell) key

end Upheld

lemma upheld_perform (hlaid : host.LaidOut) (hs : host.state? i = some s) {op : HostOperation}
    (hs' : (host.perform op).state? i = some s') (hop : host.Exclusive i r op)
    (hsteady : ∀ d s, op = .call i (.commit d) → host.state? i = some s →
      s.Steady t p pass m₀ owed)
    (h : Upheld r t p pass m₀ owed host s) :
    Upheld r t p pass m₀ owed (host.perform op) s' := by
  obtain ⟨s₀, hs₀, ⟨op', rfl, rfl⟩ | ⟨hcall, -, heffect⟩⟩ := state?_perform (lt_of_state? hs) hs'
  · obtain rfl := Option.some.inj (hs.symm.trans hs₀)
    rcases hop.call op' rfl with hvalues | ⟨d, rfl⟩
    · have hstays := (EffectState.stays_leaves_of_setValues (hlaid.counter_lt hs) host.device
        hvalues).1
      refine h.of_eq hlaid hs hs' hop (fun op'' heq => ?_) hstays
      obtain ⟨-, rfl⟩ := HostOperation.call.inj heq
      cases op' <;> first | exact ⟨rfl, rfl⟩ | cases hvalues
    · exact h.commit hlaid hs (hop.receiver d s rfl hs) (hsteady d s rfl hs)
  · obtain rfl := Option.some.inj (hs.symm.trans hs₀)
    exact h.of_eq hlaid hs hs' hop (fun op' heq => absurd heq (hcall op'))
      ⟨s.effect.blocks, s.effect.recording, heffect⟩

/-- After a pass was begun, parameters were written and committed, a commit that succeeds leaves the
device as if the whole pass had been applied instead. -/
theorem query_commit (hhost : host.Reachable) (hs : host.state? i = some s) {d : Nat}
    (hbegin : s.Completes host.device (.beginPass d p) t p)
    (hlookup : s.linked.pass? t p = some pass)
    (hdistinct : (s.linked.passPlan s.memory pass).Distinct) {ops : List HostOperation}
    (hs' : ((host.perform (.call i (.beginPass d p))).run ops).state? i = some s')
    (hops : Keeps (fun host op => host.Exclusive i (s.receiver d) op ∧
        ∀ d s₁, op = .call i (.commit d) → host.state? i = some s₁ →
          s₁.Steady t p pass s.memory (s'.linked.passPlan s'.memory pass).cells)
      (host.perform (.call i (.beginPass d p))) ops)
    (hdistinct' : (s'.linked.passPlan s'.memory pass).Distinct)
    (hchoices : s'.linked.SameChoices pass s.memory s'.memory) {d' : Nat}
    (hreceiver : s'.receiver d' = s.receiver d) (hcommit : (s'.commit d').answer = .ok ()) :
    (s'.applyPass t p pass true).answer = .ok () ∧
      ∀ key, ((((host.perform (.call i (.beginPass d p))).run ops).perform
          (.call i (.commit d'))).device (s.receiver d)).query key =
        ((((host.perform (.call i (.beginPass d p))).run ops).device
          (s.receiver d)).applyAll (s'.applyPass t p pass true).calls).query key := by
  have hlaid := hhost.laidOut
  have hlaid' : ((host.perform (.call i (.beginPass d p))).run ops).LaidOut :=
    ((hhost.run [.call i (.beginPass d p)]).run ops).laidOut
  have hbegun : Upheld (s.receiver d) t p pass s.memory (s'.linked.passPlan s'.memory pass).cells
      (host.perform (.call i (.beginPass d p))) (s.perform host.device (.beginPass d p)).state :=
    upheld_of_completes hlaid hs hbegin hlookup rfl hdistinct (fun _ _ _ _ _ => rfl)
      ((Standing.none _ _ _).mono fun a ha => LinkedEffect.not_notDue_of_full ha)
  have hupheld := state_induction
    (fun hlaid hs hs' hop h => upheld_perform hlaid hs hs' hop.1 hop.2 h)
    (hlaid.perform _) (state?_perform_call hs (.beginPass d p)) hops hs' hbegun
  exact hupheld.query_perform_commit hlaid' hs' hreceiver hdistinct' hchoices hcommit

/-- A pass is committed twice, the second time with another number. -/
theorem query_commit_dimming :
    ∃ s ∈ (dimming.run [.call 0 (.beginPass 0 0), .call 0 (.commit 0),
        .call 0 brighten]).state? 0, ∃ pass ∈ s.linked.pass? 0 0, ∀ key,
      ((dimming.run [.call 0 (.beginPass 0 0), .call 0 (.commit 0), .call 0 brighten,
        .call 0 (.commit 0)]).device 0).query key =
      (((dimming.run [.call 0 (.beginPass 0 0), .call 0 (.commit 0),
        .call 0 brighten]).device 0).applyAll (s.applyPass 0 0 pass true).calls).query key := by
  have hreachable : dimming.Reachable := reachable_dimmers.run [.call 0 (.begin 0 {})]
  have hlaid := hreachable.laidOut
  obtain ⟨s, hs, hreceiver, hbegin, hselected, pass, hlookup, hpass, hdistinct⟩ :
      ∃ s ∈ dimming.state? 0, s.receiver 0 = 0 ∧ s.Completes dimming.device (.beginPass 0 0) 0 0 ∧
        s.linked.NoSelectedSamplerStates ∧ ∃ pass ∈ s.linked.pass? 0 0,
          (∀ state ∈ pass.states, state.isSelected = false) ∧
          (s.linked.passPlan s.memory pass).Distinct := by
    decide +kernel
  obtain ⟨s₁, hs₁, hreceiver₁, hpass₁⟩ :
      ∃ s ∈ (dimming.perform (.call 0 (.beginPass 0 0))).state? 0, s.receiver 0 = 0 ∧
        ∀ pass ∈ s.linked.pass? 0 0, (s.linked.passPlan s.memory pass).Distinct ∧
          (s.linked.passPlan s.memory pass).answer = .ok () := by
    decide +kernel
  obtain ⟨s₂, hs₂, hwritten, htop⟩ :
      ∃ s ∈ (dimming.run [.call 0 (.beginPass 0 0), .call 0 (.commit 0)]).state? 0,
        s.written brighten = [⟨0⟩] ∧ ⟨0⟩ ∈ s.linked.tree.top := by
    decide +kernel
  obtain ⟨s', hs', hreceiver', hcommit, hpass'⟩ :
      ∃ s ∈ (dimming.run [.call 0 (.beginPass 0 0), .call 0 (.commit 0),
        .call 0 brighten]).state? 0, s.receiver 0 = 0 ∧ (s.commit 0).answer = .ok () ∧
        ∀ pass ∈ s.linked.pass? 0 0, (s.linked.passPlan s.memory pass).Distinct := by
    decide +kernel
  have hlinked₁ : s₁.linked = s.linked := linked_perform hlaid hs hs₁
  have hlinked' : s'.linked = s.linked := linked_run hlaid hs hs'
  have hlookup' : s'.linked.pass? 0 0 = some pass := hlinked' ▸ hlookup
  have hchoices : ∀ m, s.linked.SameChoices pass s.memory m := fun m =>
    LinkedEffect.sameChoices_of_not_selected hpass hselected
  have hsteady : s₁.Steady 0 0 pass s.memory (s'.linked.passPlan s'.memory pass).cells := by
    obtain ⟨hdistinct₁, hanswer⟩ := hpass₁ pass (hlinked₁ ▸ hlookup)
    exact ⟨hdistinct₁, hlinked₁ ▸ hchoices s₁.memory, fun hfails => absurd hanswer hfails⟩
  have hops : Keeps (fun host op => host.Exclusive 0 (s.receiver 0) op ∧
        ∀ d s₁, op = .call 0 (.commit d) → host.state? 0 = some s₁ →
          s₁.Steady 0 0 pass s.memory (s'.linked.passPlan s'.memory pass).cells)
      (dimming.perform (.call 0 (.beginPass 0 0))) [.call 0 (.commit 0), .call 0 brighten] := by
    refine ⟨⟨exclusive_commit fun s₃ hs₃ => ?_, fun d s₃ hcall hs₃ => ?_⟩,
      ⟨exclusive_setValues rfl fun s₃ hs₃ h hh => ?_, fun d s₃ hcall => ?_⟩, trivial⟩
    · obtain rfl := Option.some.inj (hs₁.symm.trans hs₃)
      exact hreceiver₁.trans hreceiver.symm
    · obtain rfl := Option.some.inj (hs₁.symm.trans hs₃)
      exact hsteady
    · obtain rfl := Option.some.inj (hs₂.symm.trans hs₃)
      rw [hwritten] at hh
      obtain rfl := List.mem_singleton.1 hh
      exact .top htop
    · cases hcall
  have hquery := query_commit hreachable hs hbegin hlookup hdistinct hs' hops
    (hpass' pass hlookup') (hlinked' ▸ hchoices s'.memory) (hreceiver'.trans hreceiver.symm) hcommit
  rw [hreceiver] at hquery
  exact ⟨s', hs', pass, hlookup', hquery.2⟩

/-! ### A number that chooses a sampler -/

/-- A program that copies a number. -/
def copyProgram (name : String) : WrittenProgram where
  literals := []
  inputs := [.ofSet name .float4 0 1]
  instructions := [⟨.mov, 1, [⟨.input, 0, none, false⟩], ⟨.output, 0, none, false⟩⟩]

/-- The type of a sampler, or of an array of samplers. -/
def samplerDeclaration (name : Option String) (elements : UInt32) : Declaration :=
  ⟨name, none, .object, .sampler2D, 0, 0, elements⟩

/-- A sampler that sets one state. -/
def stateSampler (operation value : UInt32) : Node :=
  .sampler (samplerDeclaration (some "maps") 0)
    [⟨operation, 0, .words (numberDeclaration none) [value]⟩]

/-- An image with one pass, which sets one of two samplers that set different states. A number
chooses which. -/
def chooser : Image where
  parameters := [
    ⟨0, .words (numberDeclaration (some "which")) [0], []⟩,
    ⟨0, .array (samplerDeclaration (some "maps") 2) [stateSampler 155 3, stateSampler 156 4], []⟩]
  techniques :=
    [⟨none, [], [⟨none, [], [⟨168, 0, .sampler (samplerDeclaration none 0) []⟩]⟩]⟩]
  objectCount := 0
  objectData := []
  resources := [⟨0, 0, noIndex, 0, 2,
    #[5, 0, 0, 0, 109, 97, 112, 115, 0, 0, 0, 0] ++ (copyProgram "which").encode.toArray⟩]

/-- An effect made from the image is begun. -/
def choosing : Host := run {} [.create chooser [] none, .call 0 (.begin 0 ⟨true, false, false⟩)]

/-- The choice of samplers has to stay. Else a commit that succeeds does not apply the states of the
sampler that is newly chosen, which applying the whole pass would. -/
theorem query_commit_ne_of_selected :
    ∃ s ∈ choosing.state? 0, s.Completes choosing.device (.beginPass 0 0) 0 0 ∧
      ∃ pass ∈ s.linked.pass? 0 0, (s.linked.passPlan s.memory pass).Distinct ∧
      ∃ s' ∈ (choosing.run [.call 0 (.beginPass 0 0), .call 0 brighten]).state? 0,
        (s'.linked.passPlan s'.memory pass).Distinct ∧ (s'.commit 0).answer = .ok () ∧
        ((choosing.run [.call 0 (.beginPass 0 0), .call 0 brighten, .call 0 (.commit 0)]).device
          0).query (.samplerState 0 2) ≠
        (((choosing.run [.call 0 (.beginPass 0 0), .call 0 brighten]).device 0).applyAll
          (s'.applyPass 0 0 pass true).calls).query (.samplerState 0 2) := by
  decide +kernel

end Host

end ShaderEffect
