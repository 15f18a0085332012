import ShaderEffect.Proofs.Host.Effects

/-!
# No update is lost, and none is made up

A pass counts as applied at an update drawn from the counter of its effect, and whoever writes a
block of the effect stamps it from the same counter. So a parameter is dirty for a pass exactly if
its block was written since the pass was last applied, by whatever effect.
-/

namespace ShaderEffect

namespace LinkedEffect

lemma isDirty_iff {e : LinkedEffect} {m : Memory} {h : Handle} {since : Nat} :
    e.isDirty m h since = true ↔
      ∃ id, e.blockOf? h = some id ∧ since < (m.block id).version := by
  rw [isDirty, version, decide_eq_true_iff]
  cases e.blockOf? h <;> simp

end LinkedEffect

namespace EffectState

variable {s s' : EffectState}

/-! ### When a pass was applied -/

lemma appliedAt_eq_of_applied_eq (h : s'.effect.applied = s.effect.applied) (t p : Nat) :
    s'.appliedAt t p = s.appliedAt t p := by
  rw [appliedAt, appliedAt, h]

/-- A stamp that is set is there, if the pass is. -/
lemma appliedAt_of_set {t p t' p' stamp : Nat} {stamps : List Nat}
    (ht : s.effect.applied[t]? = some stamps) (hp : p < stamps.length)
    (h : s'.effect.applied = s.effect.applied.modify t (·.set p stamp)) :
    s'.appliedAt t' p' = if t = t' ∧ p = p' then stamp else s.appliedAt t' p' := by
  rw [appliedAt, appliedAt, h, List.getElem?_modify]
  by_cases htt : t = t'
  · subst htt
    rw [ht]
    by_cases hpp : p = p'
    · subst hpp
      simp [hp]
    · simp [hpp]
  · simp [htt]

/-- The stamps of an effect are those of its passes. -/
lemma exists_stamps {host : Host} {use : Nat → BlockUse} {i t p : Nat} {pass : Pass}
    (hfits : s.effect.Fits host use i) (hpass : s.linked.pass? t p = some pass) :
    ∃ stamps, s.effect.applied[t]? = some stamps ∧ p < stamps.length := by
  obtain ⟨technique, ht, hp⟩ := Option.bind_eq_some_iff.1 hpass
  have hlength : s.effect.applied[t]?.map List.length = some technique.passes.length := by
    rw [← List.getElem?_map, hfits.shape, List.getElem?_map, ht]
    rfl
  obtain ⟨stamps, hstamps, hlength⟩ := Option.map_eq_some_iff.1 hlength
  exact ⟨stamps, hstamps, hlength ▸ (List.getElem?_eq_some_iff.1 hp).1⟩

end EffectState

namespace Host

/-- An operation applies a pass of an effect successfully. -/
def Completes (host : Host) (i t p : Nat) (op : HostOperation) : Prop :=
  ∃ op' s, op = .call i op' ∧ host.state? i = some s ∧ s.Completes host.device op' t p

/-- An operation attempts to apply a pass, in vain. -/
def FailsPass (host : Host) (op : HostOperation) : Prop :=
  ∃ i op' s, op = .call i op' ∧ host.state? i = some s ∧ op'.appliesPass = true ∧
    (s.perform host.device op').answer ≠ .ok ()

variable {host : Host} {i t p : Nat} {s s' : EffectState} {op : HostOperation}

/-- A pass that is applied is there, and counts as applied from the update on that is drawn
first. -/
lemma appliedAt_of_completes (h : host.LaidOut) (hs : host.state? i = some s) {op : Operation}
    (hcompletes : s.Completes host.device op t p) (t' p' : Nat) :
    (s.perform host.device op).state.appliedAt t' p' =
      if t = t' ∧ p = p' then s.memory.counter s.linked.counter + 1 else s.appliedAt t' p' := by
  have he := h.proper hs
  have hc := h.counter_lt hs
  obtain ⟨use, -, hfits⟩ := h.fits hs
  obtain ⟨pass, hcall⟩ := EffectState.passCall_of_completes he hc hcompletes
  obtain ⟨stamps, hstamps, hp⟩ := EffectState.exists_stamps hfits hcall.lookup
  have happlied := (EffectState.applied_of_completes he hc hcompletes).1
  exact EffectState.appliedAt_of_set hstamps hp happlied

/-- Only an operation that applies a pass changes when it counts as applied. -/
lemma appliedAt_perform (h : host.LaidOut) (hs : host.state? i = some s)
    (hs' : (host.perform op).state? i = some s') (hop : ¬host.Completes i t p op) :
    s'.appliedAt t p = s.appliedAt t p := by
  obtain ⟨s₀, hs₀, ⟨op', rfl, rfl⟩ | ⟨-, -, heffect⟩⟩ := state?_perform (lt_of_state? hs) hs'
  · obtain rfl := Option.some.inj (hs.symm.trans hs₀)
    by_cases hcompletes : ∃ t' p', s.Completes host.device op' t' p'
    · obtain ⟨t', p', hcompletes⟩ := hcompletes
      rw [appliedAt_of_completes h hs hcompletes, if_neg]
      rintro ⟨rfl, rfl⟩
      exact hop ⟨op', s, rfl, hs, hcompletes⟩
    · refine EffectState.appliedAt_eq_of_applied_eq ?_ t p
      exact EffectState.applied_of_not_completes (h.proper hs) (h.counter_lt hs)
        fun t' p' hc => hcompletes ⟨t', p', hc⟩
  · obtain rfl := Option.some.inj (hs.symm.trans hs₀)
    exact EffectState.appliedAt_eq_of_applied_eq (congrArg Effect.applied heffect) t p

/-! ### What is dirty -/

/-- The block of a parameter is written by an operation. -/
def WritesParameter (host : Host) (op : HostOperation) (e : LinkedEffect) (h : Handle) : Prop :=
  ∃ id, e.blockOf? h = some id ∧ host.Written op id

/-- An operation that does not write a parameter leaves its block alone. -/
lemma block_perform_of_not_writes (hhost : host.LaidOut) (hs : host.state? i = some s) {h : Handle}
    (hh : s.linked.IsParameter h) (hop : ¬host.WritesParameter op s.linked h) {id : Nat}
    (hid : s.linked.blockOf? h = some id) :
    (host.perform op).memory.block id = s.memory.block id := by
  have hcomputed := (hhost.proper hs).stable_of_isParameter hh id hid
  rcases (later_perform hhost hs op).unchanged_or_stamped id
    (LinkedEffect.owns_of_blockOf? hid) with hsame | ⟨hwritten | ⟨h, -⟩, -⟩
  · exact hsame
  · exact absurd ⟨id, hid, hwritten⟩ hop
  · exact absurd h hcomputed

lemma isDirty_perform_of_not_writes (hhost : host.LaidOut) (hs : host.state? i = some s)
    {h : Handle} (hh : s.linked.IsParameter h) (hop : ¬host.WritesParameter op s.linked h)
    (since : Nat) :
    s.linked.isDirty (host.perform op).memory h since = s.linked.isDirty s.memory h since := by
  rw [LinkedEffect.isDirty, LinkedEffect.isDirty, LinkedEffect.version_congr fun id hid =>
    block_perform_of_not_writes hhost hs hh hop hid]

/-- A parameter becomes dirty when it is written, and stays so. -/
lemma isDirty_perform (hhost : host.LaidOut) (hs : host.state? i = some s) {h : Handle}
    (hh : s.linked.IsParameter h) {since : Nat}
    (hsince : since ≤ s.memory.counter s.linked.counter) :
    s.linked.isDirty (host.perform op).memory h since = true ↔
      s.linked.isDirty s.memory h since = true ∨ host.WritesParameter op s.linked h := by
  by_cases hwrites : host.WritesParameter op s.linked h
  · obtain ⟨id, hid, hwritten⟩ := hwrites
    have hstamp := (later_perform hhost hs op).stamped id (LinkedEffect.owns_of_blockOf? hid)
      hwritten
    exact iff_of_true (LinkedEffect.isDirty_iff.2 ⟨id, hid, Nat.lt_of_le_of_lt hsince hstamp⟩)
      (.inr ⟨id, hid, hwritten⟩)
  · rw [isDirty_perform_of_not_writes hhost hs hh hwrites, or_iff_left hwrites]

/-- Applying a pass writes no parameter of any effect. -/
lemma not_writesParameter_of_appliesPass {j : Nat} {op : Operation} (hop : op.appliesPass = true)
    (e : LinkedEffect) (h : Handle) : ¬host.WritesParameter (.call j op) e h := by
  rintro ⟨id, -, j', op', s, hcall, -, h', hmem, -⟩
  obtain ⟨rfl, rfl⟩ := HostOperation.call.inj hcall
  have hvalues : op.setsValues = false := by cases op <;> first | rfl | cases hop
  rw [EffectState.written_of_not_setsValues hvalues] at hmem
  cases hmem

/-- After a run those parameters are dirty that were so before or that the run wrote. -/
lemma isDirty_run {host : Host} (hhost : host.LaidOut) {s s' : EffectState}
    (hs : host.state? i = some s) {ops : List HostOperation}
    (hops : Keeps (fun host op => ¬host.Completes i t p op) host ops)
    (hs' : (host.run ops).state? i = some s') {h : Handle} (hh : s.linked.IsParameter h)
    (hsince : s.appliedAt t p ≤ s.memory.counter s.linked.counter) :
    s'.linked.isDirty s'.memory h (s'.appliedAt t p) = true ↔
      s.linked.isDirty s.memory h (s.appliedAt t p) = true ∨
        ∃ id, s'.linked.blockOf? h = some id ∧ WrittenBy host ops id := by
  induction ops generalizing host s with
  | nil =>
    obtain rfl := Option.some.inj (hs.symm.trans hs')
    simp [WrittenBy]
  | cons op rest ih =>
    obtain ⟨s₁, hs₁⟩ := exists_state?_of_run
      (Nat.lt_of_lt_of_le (lt_of_state? hs) (size_effects_perform host op)) hs'
    have hlinked := linked_perform hhost hs hs₁
    have hmemory := (state?_eq_some.1 hs₁).2
    have happlied := appliedAt_perform hhost hs hs₁ hops.1
    have hcounter : s₁.appliedAt t p ≤ s₁.memory.counter s₁.linked.counter := by
      rw [happlied, hlinked, hmemory]
      exact Nat.le_trans hsince (later_perform hhost hs op).counter_le
    have hlinked' : s'.linked = s.linked :=
      (linked_run (hhost.perform op) hs₁ hs').trans hlinked
    rw [ih (hhost.perform op) hs₁ hops.2 hs' (hlinked ▸ hh) hcounter, hlinked, happlied, hmemory,
      isDirty_perform hhost hs hh hsince, hlinked', or_assoc, WritesParameter, ← exists_or]
    exact or_congr_right (exists_congr fun id => and_or_left.symm)

/-- No parameter is dirty for a pass that was just applied. -/
lemma isDirty_of_completes (hhost : host.LaidOut) (hs : host.state? i = some s) {op : Operation}
    (hcompletes : s.Completes host.device op t p) {h : Handle} (hh : s.linked.IsParameter h) :
    s.linked.isDirty (host.perform (.call i op)).memory h
      ((s.perform host.device op).state.appliedAt t p) = false := by
  have hop : op.appliesPass = true := by
    have hpassOf := hcompletes.1
    cases op <;> first | rfl | cases hpassOf
  rw [isDirty_perform_of_not_writes hhost hs hh (not_writesParameter_of_appliesPass hop _ _),
    appliedAt_of_completes hhost hs hcompletes, if_pos ⟨rfl, rfl⟩, Bool.eq_false_iff]
  intro hdirty
  obtain ⟨id, hid, hlt⟩ := LinkedEffect.isDirty_iff.1 hdirty
  have hle := hhost.version_le hs (LinkedEffect.owns_of_blockOf? hid)
  omega

/-! ### Two effects that share a number -/

/-- The type of a number. -/
def numberDeclaration (name : Option String) : Declaration := ⟨name, none, .scalar, .float, 1, 1, 0⟩

/-- An image with one shared number and one pass, which sets a render state to the number. -/
def dimmer : Image where
  parameters := [⟨1, .words (numberDeclaration (some "level")) [0], []⟩]
  techniques := [⟨none, [], [⟨none, [], [⟨0, 0, .words (numberDeclaration none) [0]⟩]⟩]⟩]
  objectCount := 0
  objectData := []
  resources := [⟨0, 0, noIndex, 0, 1, #[108, 101, 118, 101, 108, 0]⟩]

/-- Two effects of a pool, and a device that somebody else has used. -/
def dimmers : Host :=
  run {} [.createPool, .create dimmer [] (some 0), .create dimmer [] (some 0),
    .send 0 [.renderState 7 9]]

lemma reachable_dimmers : dimmers.Reachable := ⟨_, rfl⟩

/-- The first of the effects is begun. -/
def dimming : Host := dimmers.perform (.call 0 (.begin 0 {}))

/-- Set the shared number to one. -/
def brighten : Operation := .set ⟨0⟩ (.float ⟨0x3F800000⟩)

/-! ### Updates -/

/-- A parameter is dirty for a pass that was applied exactly if its block was written by any effect
since the pass was last applied. A pass that fails changes neither what is dirty nor when passes
count as applied, for no effect. -/
theorem isDirty_appliedAt_iff_writtenBy {host : Host} (hhost : host.Reachable) :
    (∀ (i t p : Nat) (op : HostOperation), host.Completes i t p op →
      ∀ ops, Keeps (fun host op => ¬host.Completes i t p op) (host.perform op) ops →
      ∀ s', ((host.perform op).run ops).state? i = some s' →
      ∀ h, s'.linked.IsParameter h →
        (s'.linked.isDirty s'.memory h (s'.appliedAt t p) = true ↔
          ∃ id, s'.linked.blockOf? h = some id ∧ WrittenBy (host.perform op) ops id)) ∧
    ∀ op, host.FailsPass op →
      ∀ (i : Nat) (s s' : EffectState), host.state? i = some s →
        (host.perform op).state? i = some s' →
        (∀ t p, s'.appliedAt t p = s.appliedAt t p) ∧
        ∀ h, s'.linked.IsParameter h → ∀ since,
          s'.linked.isDirty s'.memory h since = s.linked.isDirty s.memory h since := by
  have hlaid := hhost.laidOut
  constructor
  · rintro i t p _ ⟨op, s, rfl, hs, hcompletes⟩ ops hops s' hs' h hh
    have hs₁ := state?_perform_call hs op
    have hlinked := linked_perform hlaid hs hs₁
    have hlinked' := linked_run (hlaid.perform _) hs₁ hs'
    have hclean := isDirty_of_completes hlaid hs hcompletes (hlinked ▸ hlinked' ▸ hh)
    have hstamp : (s.perform host.device op).state.appliedAt t p ≤
        (s.perform host.device op).state.memory.counter
          (s.perform host.device op).state.linked.counter := by
      rw [appliedAt_of_completes hlaid hs hcompletes, if_pos ⟨rfl, rfl⟩, hlinked]
      exact (EffectState.applied_of_completes (hlaid.proper hs) (hlaid.counter_lt hs)
        hcompletes).2
    rw [isDirty_run (hlaid.perform _) hs₁ hops hs' (hlinked' ▸ hh) hstamp, hlinked,
      ← (perform_call hs op).1, hclean]
    simp
  · rintro _ ⟨j, op, s₀, rfl, hs₀, hop, hfails⟩ i s s' hs hs'
    have hlinked := linked_perform hlaid hs hs'
    refine ⟨fun t p => appliedAt_perform hlaid hs hs' ?_, fun h hh since => ?_⟩
    · rintro ⟨op', s₁, hcall, hs₁, -, hanswer⟩
      obtain ⟨rfl, rfl⟩ := HostOperation.call.inj hcall
      obtain rfl := Option.some.inj (hs₀.symm.trans hs₁)
      exact hfails hanswer
    · rw [hlinked, (state?_eq_some.1 hs').2]
      exact isDirty_perform_of_not_writes hlaid hs (hlinked ▸ hh)
        (not_writesParameter_of_appliesPass hop _ _) since

/-- The number is dirty for the pass of one effect when the other effect has set it, and a pass that
is not there changes nothing. -/
theorem isDirty_of_brighten :
    (∃ s ∈ (dimming.run [.call 0 (.beginPass 0 0), .call 1 brighten]).state? 0,
      s.linked.isDirty s.memory ⟨0⟩ (s.appliedAt 0 0) = true) ∧
    ∃ s ∈ dimming.state? 0, ∃ s' ∈ (dimming.perform (.call 0 (.beginPass 0 1))).state? 0,
      s'.appliedAt 0 0 = s.appliedAt 0 0 := by
  have hreachable : dimming.Reachable := reachable_dimmers.run [.call 0 (.begin 0 {})]
  obtain ⟨s, hs, hbegin, hfails⟩ : ∃ s ∈ dimming.state? 0,
      s.Completes dimming.device (.beginPass 0 0) 0 0 ∧
        (s.perform dimming.device (.beginPass 0 1)).answer ≠ .ok () := by
    decide +kernel
  constructor
  · obtain ⟨s₁, hs₁, hwritten, hblock₁⟩ :
        ∃ s ∈ (dimming.perform (.call 0 (.beginPass 0 0))).state? 1,
          s.written brighten = [⟨0⟩] ∧ s.linked.blockOf? ⟨0⟩ = some 0 := by
      decide +kernel
    obtain ⟨s', hs', htop, hblock⟩ :
        ∃ s ∈ (dimming.run [.call 0 (.beginPass 0 0), .call 1 brighten]).state? 0,
          ⟨0⟩ ∈ s.linked.tree.top ∧ s.linked.blockOf? ⟨0⟩ = some 0 := by
      decide +kernel
    have hcompletes : dimming.Completes 0 0 0 (.call 0 (.beginPass 0 0)) := ⟨_, s, rfl, hs, hbegin⟩
    have hkeeps : Keeps (fun host op => ¬host.Completes 0 0 0 op)
        (dimming.perform (.call 0 (.beginPass 0 0))) [.call 1 brighten] := by
      refine ⟨?_, trivial⟩
      rintro ⟨op, s, hcall, -⟩
      cases hcall
    refine ⟨s', hs', ((isDirty_appliedAt_iff_writtenBy hreachable).1 0 0 0 _ hcompletes _ hkeeps s'
      hs' ⟨0⟩ (.top htop)).2 ⟨0, hblock, .inl ?_⟩⟩
    exact ⟨1, brighten, s₁, rfl, hs₁, ⟨0⟩, by simp [hwritten], hblock₁⟩
  · obtain ⟨s', hs'⟩ : ∃ s', (dimming.perform (.call 0 (.beginPass 0 1))).state? 0 = some s' :=
      Option.isSome_iff_exists.1 (by decide +kernel)
    exact ⟨s, hs, s', hs', ((isDirty_appliedAt_iff_writtenBy hreachable).2 _
      ⟨0, _, s, rfl, hs, rfl, hfails⟩ 0 s s' hs hs').1 0 0⟩

end Host

end ShaderEffect
