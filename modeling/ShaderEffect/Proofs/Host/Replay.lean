import ShaderEffect.Proofs.Host.Bounded
import ShaderEffect.Proofs.Host.Private
import ShaderEffect.Proofs.Replay

/-!
# Replaying parameter blocks

A block keeps what was written through an effect while it was recorded, whatever else was done, as
long as no other effect has a block of this one (`Host.Unshared`). Applied at any time until it is
deleted, it gives back what its parameters held when the recording ended (`Host.applyBlock_run`).
-/

namespace ShaderEffect

/-! ### Calls to the effect -/

namespace EffectState

/-- The parameters that a call notes in the block being recorded, one after the other: those it
writes, and all that are in a block it applies. -/
def noted (s : EffectState) : Operation → List Handle
  | .set h setter => match s.set h setter with
    | .ok _ => s.targets h setter
    | .error _ => []
  | .reset h => match s.resetValue h with
    | .ok _ => [h]
    | .error _ => []
  | .applyBlock i => ((s.block? i).getD []).map (·.h)
  | _ => []

variable {s : EffectState} {history : List Handle} {block : ParameterBlock} {n : Nat}

lemma noted_of_not_setsValues {op : Operation} (hop : op.setsValues = false) :
    s.noted op = [] := by
  cases op <;> first | rfl | cases hop

/-- A call that does not end the recording keeps track. -/
lemma tracks_perform (he : s.linked.Proper) (hc : s.linked.counter < s.memory.counters.size)
    (devices : Nat → Device) {op : Operation} (hop : op ≠ .endBlock)
    (hrecording : s.effect.recording = some block)
    (htracks : s.linked.Tracks history s.memory block) :
    ∃ block', (s.perform devices op).state.effect.recording = some block' ∧
      s.linked.Tracks (history ++ s.noted op) (s.perform devices op).state.memory block' := by
  by_cases hvalues : op.setsValues = true
  · have hsame : ∀ {s' : EffectState}, s'.effect.recording = s.effect.recording →
        s'.memory = s.memory → ∃ block', s'.effect.recording = some block' ∧
          s.linked.Tracks (history ++ []) s'.memory block' := fun hrecording' hmemory =>
      ⟨block, hrecording'.trans hrecording, by rwa [List.append_nil, hmemory]⟩
    cases op with
    | set h setter =>
      rw [perform, noted]
      cases hset : s.set h setter with
      | ok s' => exact (trail_set hc hset).tracks hrecording htracks
      | error e => exact hsame rfl rfl
    | reset h =>
      rw [perform, noted]
      cases hset : s.resetValue h with
      | ok s' => exact (trail_resetValue hc hset).tracks hrecording htracks
      | error e => exact hsame rfl rfl
    | applyBlock i =>
      rw [perform, noted]
      cases hset : s.applyBlock i with
      | ok s' => exact (trail_applyBlock hc hset).tracks hrecording htracks
      | error e =>
        rw [block?_of_applyBlock_eq_error hset]
        exact hsame rfl rfl
    | beginBlock =>
      rw [perform, beginBlock, hrecording]
      exact hsame rfl rfl
    | endBlock => exact absurd rfl hop
    | deleteBlock i =>
      rw [perform, deleteBlock]
      split <;> exact hsame rfl rfl
    | _ => cases hvalues
  · have hop := Bool.eq_false_iff.2 hvalues
    have hrecording' := (blocks_of_not_setsValues he hc devices hop).2
    rw [s.noted_of_not_setsValues hop, List.append_nil]
    refine ⟨block, hrecording'.trans hrecording, htracks.congr fun id k n hid _ =>
      ((leaves_perform he hc devices op).within id k n).resolve_right ?_⟩
    rintro (⟨h, hh, -⟩ | ⟨-, hcomputed⟩)
    · rw [s.written_of_not_setsValues hop] at hh
      cases hh
    · exact hid hcomputed

/-- A block stays until it is deleted. -/
lemma block?_perform (he : s.linked.Proper) (hc : s.linked.counter < s.memory.counters.size)
    (devices : Nat → Device) {op : Operation} (hop : op ≠ .deleteBlock n)
    (hblock : s.block? n = some block) : (s.perform devices op).state.block? n = some block := by
  by_cases hvalues : op.setsValues = true
  · have hset : ∀ {hs : List Handle} {s' : EffectState}, Setting s hs s' →
        s'.block? n = some block := fun h => by rwa [block?, h.blocks]
    cases op with
    | set h setter => exact orKeep_induction hblock fun s' hs => hset (setting_set hc hs)
    | reset h => exact orKeep_induction hblock fun s' hs => hset (setting_resetValue hc hs)
    | applyBlock i => exact orKeep_induction hblock fun s' hs => hset (setting_applyBlock hc hs)
    | beginBlock =>
      rw [perform, beginBlock]
      split <;> exact hblock
    | endBlock =>
      rw [perform, endBlock]
      split
      · exact hblock
      · have hn : n < s.effect.blocks.size := by
          by_contra hn
          rw [block?, Array.getElem?_eq_none (Nat.le_of_not_lt hn)] at hblock
          cases hblock
        rw [Except.map, orKeep, block?, Array.getElem?_push, if_neg (Nat.ne_of_lt hn)]
        exact hblock
    | deleteBlock i =>
      have hin : i ≠ n := fun h => hop (h ▸ rfl)
      rw [perform, deleteBlock]
      split
      · rw [orKeep, block?, Array.getElem?_setIfInBounds_ne hin]
        exact hblock
      · exact hblock
    | _ => cases hvalues
  · rwa [block?, (blocks_of_not_setsValues he hc devices (Bool.eq_false_iff.2 hvalues)).1]

/-- The block that was recorded is there from the end of the recording. -/
lemma exists_of_recording (hrecording : s.effect.recording = some block) :
    ∃ s', s.endBlock = .ok (s.effect.blocks.size, s') ∧ s'.linked = s.linked ∧
      s'.memory = s.memory ∧ s'.block? s.effect.blocks.size = some block := by
  rw [endBlock, hrecording]
  exact ⟨_, rfl, rfl, rfl, by simp [block?]⟩

end EffectState

/-! ### Runs -/

namespace Host

/-- No other effect has a block of an effect. -/
def Unshared (host : Host) (i : Nat) : Prop :=
  ∀ j s s' id, host.state? i = some s → host.state? j = some s' → s.linked.Owns id →
    s'.linked.Owns id → j = i

/-- The parameters of an effect that an operation notes. -/
def noted (host : Host) (i : Nat) : HostOperation → List Handle
  | .call j op => if j = i then ((host.state? i).map (·.noted op)).getD [] else []
  | _ => []

/-- The parameters of an effect that a run notes, one after the other. -/
def notedBy (i : Nat) : Host → List HostOperation → List Handle
  | _, [] => []
  | host, op :: rest => host.noted i op ++ notedBy i (host.perform op) rest

variable {host : Host} {i : Nat} {s s' : EffectState} {history : List Handle}
  {block : ParameterBlock}

lemma noted_call (hs : host.state? i = some s) (op : Operation) :
    host.noted i (.call i op) = s.noted op := by
  rw [noted, if_pos rfl, hs, Option.map_some, Option.getD_some]

lemma noted_of_ne_call {op : HostOperation} (hop : ∀ op', op ≠ .call i op') :
    host.noted i op = [] := by
  cases op with
  | call j op' =>
    rw [noted, if_neg]
    rintro rfl
    exact hop op' rfl
  | _ => rfl

/-- An operation that does not end the recording keeps track, if no other effect has a block of the
effect. -/
lemma tracks_step (hhost : host.LaidOut) (hunshared : host.Unshared i) {op : HostOperation}
    (hs : host.state? i = some s) (hs' : (host.perform op).state? i = some s')
    (hop : op ≠ .call i .endBlock) (hrecording : s.effect.recording = some block)
    (htracks : s.linked.Tracks history s.memory block) :
    ∃ block', s'.effect.recording = some block' ∧
      s.linked.Tracks (history ++ host.noted i op) s'.memory block' := by
  obtain ⟨s₀, hs₀, ⟨op', rfl, rfl⟩ | ⟨hcall, -, heffect⟩⟩ := state?_perform (lt_of_state? hs) hs'
  · obtain rfl := Option.some.inj (hs.symm.trans hs₀)
    rw [noted_call hs]
    exact EffectState.tracks_perform (hhost.proper hs) (hhost.counter_lt hs) host.device
      (fun h => hop (h ▸ rfl)) hrecording htracks
  · obtain rfl := Option.some.inj (hs.symm.trans hs₀)
    obtain ⟨use, hlayout, hfits⟩ := hhost.fits hs
    rw [noted_of_ne_call hcall, List.append_nil, (state?_eq_some.1 hs').2]
    refine ⟨block, heffect ▸ hrecording, htracks.congr fun id k n _ hadd => ?_⟩
    obtain ⟨h, -, p, -, hid, -⟩ := hadd
    have howns := LinkedEffect.owns_of_blockOf? hid
    by_contra hne
    rw [(state?_eq_some.1 hs).2] at hne
    -- Only a call to another effect could change the place, and this would have the block.
    obtain ⟨j, op', t, rfl, ht, hcause⟩ := changes_perform hlayout op (hfits.lt_of_owns howns) hne
    refine hcall op' (congrArg (HostOperation.call · op') (hunshared j s t id hs ht howns ?_))
    rcases hcause with ⟨g, -, q, -, hid', -⟩ | ⟨-, hcomputed⟩
    · exact LinkedEffect.owns_of_blockOf? hid'
    · exact LinkedEffect.owns_of_computed hcomputed

/-- A run that does not end the recording keeps track. -/
lemma tracks_run (hhost : host.LaidOut) {ops : List HostOperation}
    (hunshared : Keeps (fun host _ => host.Unshared i) host ops)
    (hops : HostOperation.call i .endBlock ∉ ops) (hs : host.state? i = some s)
    (hs' : (host.run ops).state? i = some s') (hrecording : s.effect.recording = some block)
    (htracks : s.linked.Tracks history s.memory block) :
    ∃ block', s'.effect.recording = some block' ∧
      s.linked.Tracks (history ++ notedBy i host ops) s'.memory block' := by
  induction ops generalizing host s history block with
  | nil =>
    obtain rfl := Option.some.inj (hs.symm.trans hs')
    exact ⟨block, hrecording, by rwa [notedBy, List.append_nil]⟩
  | cons op rest ih =>
    obtain ⟨s₁, hs₁⟩ := exists_state?_of_run
      (Nat.lt_of_lt_of_le (lt_of_state? hs) (size_effects_perform host op)) hs'
    rw [List.mem_cons, not_or] at hops
    obtain ⟨block₁, hrecording₁, htracks₁⟩ :=
      tracks_step hhost hunshared.1 hs hs₁ (Ne.symm hops.1) hrecording htracks
    have hlinked := linked_perform hhost hs hs₁
    rw [notedBy, ← List.append_assoc]
    rw [← hlinked] at htracks₁ ⊢
    exact ih (hhost.perform op) hunshared.2 hops.2 hs₁ hs' hrecording₁ htracks₁

/-- An effect without a pool shares nothing. -/
lemma unshared_of_pool_eq_none (hhost : host.Reachable) (hs : host.state? i = some s)
    (hpool : s.linked.pool = none) : host.Unshared i := by
  rintro j s₁ s₂ id hs₁ hs₂ ⟨r, hr⟩ ⟨r', hr'⟩
  obtain rfl := Option.some.inj (hs.symm.trans hs₁)
  obtain ⟨owner, howned⟩ := hhost.owned
  rcases howned.eq_or_shares (state?_eq_some.1 hs).1 (state?_eq_some.1 hs₂).1 hr hr' with
    ⟨rfl, -⟩ | ⟨q, name, ⟨t, hshares, -⟩, -⟩
  · rfl
  · rw [hshares.pool] at hpool
    cases hpool

lemma keeps_unshared_of_pool_eq_none (hhost : host.Reachable)
    (hpool : ∀ s, host.state? i = some s → s.linked.pool = none) (hi : i < host.effects.size)
    (ops : List HostOperation) : Keeps (fun host _ => host.Unshared i) host ops := by
  induction ops generalizing host with
  | nil => trivial
  | cons op rest ih =>
    refine ⟨fun j s₁ s₂ id hs₁ => ?_, ih (hhost.run [op]) (fun s' hs' => ?_)
      (Nat.lt_of_lt_of_le hi (size_effects_perform host op))⟩
    · exact unshared_of_pool_eq_none hhost hs₁ (hpool s₁ hs₁) j s₁ s₂ id hs₁
    · obtain ⟨s, hs, -⟩ := state?_perform hi hs'
      exact (congrArg LinkedEffect.pool (linked_perform hhost.laidOut hs hs')).trans (hpool s hs)

/-- The blocks of an effect keep their sizes. -/
lemma size_run (hhost : host.LaidOut) (hs : host.state? i = some s) {ops : List HostOperation}
    (hs' : (host.run ops).state? i = some s') {id : Nat} (hid : s.linked.Owns id) (k : Storage) :
    k.size (s'.memory.block id).toContents = k.size (s.memory.block id).toContents := by
  obtain ⟨-, hsize⟩ := state_induction (i := i)
    (motive := fun _ s' => s'.linked = s.linked ∧
      k.size (s'.memory.block id).toContents = k.size (s.memory.block id).toContents)
    (fun {host op s₁ s₂} hhost hs₁ hs₂ _ ⟨hlinked, hsize⟩ => by
      have hlater := later_perform hhost hs₁ op
      rw [hlinked] at hlater
      refine ⟨(linked_perform hhost hs₁ hs₂).trans hlinked, Eq.trans ?_ hsize⟩
      rw [(state?_eq_some.1 hs₂).2]
      cases k with
      | words => exact hlater.size_words id hid
      | objects => exact hlater.size_objects id hid)
    hhost hs (keeps_true host ops) hs' ⟨rfl, rfl⟩
  exact hsize

/-- A block stays until it is deleted. -/
lemma block?_run (hhost : host.LaidOut) (hs : host.state? i = some s) {ops : List HostOperation}
    (hs' : (host.run ops).state? i = some s') {n : Nat}
    (hops : HostOperation.call i (.deleteBlock n) ∉ ops) (hblock : s.block? n = some block) :
    s'.block? n = some block := by
  induction ops generalizing host s with
  | nil =>
    obtain rfl := Option.some.inj (hs.symm.trans hs')
    exact hblock
  | cons op rest ih =>
    obtain ⟨s₁, hs₁⟩ := exists_state?_of_run
      (Nat.lt_of_lt_of_le (lt_of_state? hs) (size_effects_perform host op)) hs'
    rw [List.mem_cons, not_or] at hops
    refine ih (hhost.perform op) hs₁ hs' hops.2 ?_
    obtain ⟨s₀, hs₀, ⟨op', rfl, rfl⟩ | ⟨-, -, heffect⟩⟩ := state?_perform (lt_of_state? hs) hs₁
    · obtain rfl := Option.some.inj (hs.symm.trans hs₀)
      exact EffectState.block?_perform (hhost.proper hs) (hhost.counter_lt hs) host.device
        (fun h => hops.1 (h ▸ rfl)) hblock
    · obtain rfl := Option.some.inj (hs.symm.trans hs₀)
      rwa [EffectState.block?, heffect]

/-- A block that is recorded keeps track of what is noted from its beginning. -/
lemma tracks_run_beginBlock (hhost : host.LaidOut) (hs : host.state? i = some s)
    (hidle : s.effect.recording = none) {ops : List HostOperation}
    (hunshared : Keeps (fun host _ => host.Unshared i) host (.call i .beginBlock :: ops))
    (hops : HostOperation.call i .endBlock ∉ ops)
    (hs' : (host.run (.call i .beginBlock :: ops)).state? i = some s') :
    ∃ block, s'.effect.recording = some block ∧
      s.linked.Tracks (notedBy i host (.call i .beginBlock :: ops)) s'.memory block := by
  have hbegun : (host.perform (.call i .beginBlock)).state? i =
      some { s with effect := { s.effect with recording := some [] } } := by
    rw [state?_perform_call hs, EffectState.perform, EffectState.beginBlock, hidle]
    rfl
  have hhistory : notedBy i host (.call i .beginBlock :: ops) =
      [] ++ notedBy i (host.perform (.call i .beginBlock)) ops := by
    rw [notedBy, noted_call hs]
    rfl
  obtain ⟨block, hblock, htracks⟩ := tracks_run (hhost.perform _) hunshared.2 hops hbegun
    (run_cons host _ ops ▸ hs') rfl (.nil s.linked s.memory)
  exact ⟨block, hblock, hhistory ▸ htracks⟩

/-- A block is recorded, whatever is written through the effect, as long as no other effect has a
block of it. Applied after anything else was done, but to delete it, it gives every parameter that
was written, at each place, what this held when the recording ended, unless the one that was written
last of those that address the place was written before another one of them was at all; and nothing
else changes. -/
theorem applyBlock_run (hhost : host.Reachable) (hs : host.state? i = some s)
    (hidle : s.effect.recording = none) {ops later : List HostOperation}
    (hunshared : Keeps (fun host _ => host.Unshared i) host (.call i .beginBlock :: ops))
    (hops : HostOperation.call i .endBlock ∉ ops)
    (hs' : (host.run (.call i .beginBlock :: ops ++ .call i .endBlock :: later)).state? i =
      some s') :
    ∃ recorded n ended, (host.run (.call i .beginBlock :: ops)).state? i = some recorded ∧
      recorded.endBlock = .ok (n, ended) ∧
      (HostOperation.call i (.deleteBlock n) ∉ later → ∃ applied,
        s'.applyBlock n = .ok applied ∧
        s.linked.Replays (notedBy i host (.call i .beginBlock :: ops)) recorded.memory s'.memory
          applied.memory) := by
  have hrun := hhost.run (.call i .beginBlock :: ops)
  have hhost' := (hrun.run (.call i .endBlock :: later)).laidOut
  rw [run_append] at hs'
  obtain ⟨recorded, hrecorded⟩ := exists_state?_of_run
    (Nat.lt_of_lt_of_le (lt_of_state? hs) (size_effects_run host _)) hs'
  obtain ⟨block, hblock, htracks⟩ :=
    tracks_run_beginBlock hhost.laidOut hs hidle hunshared hops hrecorded
  obtain ⟨ended, hend, hsame, hmemory, hkept⟩ := EffectState.exists_of_recording hblock
  refine ⟨recorded, _, ended, hrecorded, hend, fun hlater => ?_⟩
  have hended : ((host.run (.call i .beginBlock :: ops)).perform (.call i .endBlock)).state? i =
      some ended := by
    rw [state?_perform_call hrecorded, EffectState.perform, hend]
    rfl
  -- Once the recording is over, the block stays, and so do the sizes of what it is written to.
  have hkept' := block?_run (hrun.laidOut.perform _) hended hs' hlater hkept
  have hlinked : ended.linked = s.linked := hsame.trans (linked_run hhost.laidOut hs hrecorded)
  have hlinked' := (linked_run (hrun.laidOut.perform _) hended hs').trans hlinked
  refine ⟨block.foldl EffectState.applyEntry s', by rw [EffectState.applyBlock, hkept'], ?_⟩
  rw [← hlinked'] at htracks ⊢
  refine htracks.replays (hhost'.proper hs') (hhost'.counter_lt hs') fun id hid => ?_
  obtain ⟨use, -, hfits⟩ := hhost'.fits hs'
  refine ⟨(state?_eq_some.1 hs').2 ▸ hfits.lt_of_owns hid, fun k => ?_⟩
  rw [hlinked', ← hlinked] at hid
  rw [← hmemory]
  exact size_run (hrun.laidOut.perform _) hended hs' hid k

/-! ### An array that is written by its elements -/

/-- An image with an array of two numbers. -/
def levels : Image where
  parameters := [⟨0, .array ⟨some "levels", none, .scalar, .float, 1, 1, 2⟩
    [.words ⟨some "levels", none, .scalar, .float, 1, 1, 0⟩ [0],
      .words ⟨some "levels", none, .scalar, .float, 1, 1, 0⟩ [0]], []⟩]
  techniques := []
  objectCount := 0
  objectData := []
  resources := []

/-- An effect made from the image. -/
def leveled : Host := run {} [.create levels [] none]

/-- Write the array. -/
def writeLevels (a b : UInt32) : HostOperation := .call 0 (.set ⟨0⟩ (.floats [⟨a⟩, ⟨b⟩]))

/-- Write the first element of the array. -/
def writeFirst (a : UInt32) : HostOperation := .call 0 (.set ⟨1⟩ (.float ⟨a⟩))

/-- The array and its first element are written by turns. -/
def alternating : List HostOperation :=
  [writeLevels 5 6, writeFirst 1, writeLevels 7 8, writeFirst 2]

/-- What is done before the block is applied. -/
def alternatingLater : List HostOperation := [.call 0 (.reset ⟨0⟩), .call 0 (.set ⟨2⟩ (.float ⟨9⟩))]

/-- The array has what it held at the end of the recording. -/
theorem applyBlock_run_alternating :
    ∃ s ∈ leveled.state? 0, ∃ s' ∈ (leveled.run (.call 0 .beginBlock :: alternating ++
        .call 0 .endBlock :: alternatingLater)).state? 0,
      s'.words ⟨0⟩ = [0, 9] ∧ ∃ recorded n ended applied id,
        (leveled.run (.call 0 .beginBlock :: alternating)).state? 0 = some recorded ∧
        recorded.endBlock = .ok (n, ended) ∧ s'.applyBlock n = .ok applied ∧
        s.linked.Replays [⟨0⟩, ⟨1⟩, ⟨0⟩, ⟨1⟩] recorded.memory s'.memory applied.memory ∧
        s.linked.blockOf? ⟨0⟩ = some id ∧
        applied.memory.valueAt id .words 0 = some (2 : UInt32) := by
  have hhistory : notedBy 0 leveled (.call 0 .beginBlock :: alternating) =
      [⟨0⟩, ⟨1⟩, ⟨0⟩, ⟨1⟩] := by decide +kernel
  have horder : ∀ g ∈ [⟨0⟩, ⟨1⟩, ⟨0⟩, ⟨1⟩], ∀ h ∈ [⟨0⟩, ⟨1⟩, ⟨0⟩, ⟨1⟩],
      ¬Encloses [⟨0⟩, ⟨1⟩, ⟨0⟩, ⟨1⟩] g h := by decide
  obtain ⟨s, hs, hidle, hpool, htop, p, hp, hid, hplace⟩ : ∃ s ∈ leveled.state? 0,
      s.effect.recording.isNone = true ∧ s.linked.pool = none ∧ ⟨0⟩ ∈ s.tree.top ∧
      ∃ p ∈ s.tree.node? ⟨0⟩, s.linked.blockOf? ⟨0⟩ = some 0 ∧ p.words = ⟨0, 2⟩ := by
    decide +kernel
  obtain ⟨s', hs', hwords⟩ : ∃ s' ∈ (leveled.run (.call 0 .beginBlock :: alternating ++
      .call 0 .endBlock :: alternatingLater)).state? 0, s'.words ⟨0⟩ = [0, 9] := by
    decide +kernel
  obtain ⟨recorded, hrecorded, hvalue⟩ : ∃ recorded ∈
      (leveled.run (.call 0 .beginBlock :: alternating)).state? 0,
      (recorded.memory.block 0).words[0]? = some 2 := by
    decide +kernel
  have hhost : leveled.Reachable := ⟨_, rfl⟩
  obtain ⟨recorded', n, ended, hrecorded', hend, hreplays⟩ := applyBlock_run hhost hs
    (Option.isNone_iff_eq_none.1 hidle)
    (keeps_unshared_of_pool_eq_none hhost
      (fun t ht => Option.some.inj (hs.symm.trans ht) ▸ hpool) (lt_of_state? hs) _)
    (by simp [alternating, writeLevels, writeFirst]) hs'
  obtain rfl := Option.some.inj (hrecorded.symm.trans hrecorded')
  obtain ⟨applied, happlied, hreplays⟩ := hreplays (by simp [alternatingLater])
  rw [hhistory] at hreplays
  refine ⟨s, hs, s', hs', hwords, recorded, n, ended, applied, 0, hrecorded, hend, happlied,
    hreplays, hid, Eq.trans ?_ hvalue⟩
  have hhas : (Storage.slice .words p).Has 0 := by
    show p.words.Has 0
    rw [hplace]
    exact ⟨Nat.le_refl 0, Nat.zero_lt_two⟩
  exact hreplays.given ⟨0⟩ (by simp) (.top htop) 0 .words 0
    (LinkedEffect.addresses_singleton.2 ⟨p, hp, hid, hhas⟩) fun g hg h hh _ _ henclosed =>
      absurd henclosed (horder g hg h hh)

/-- The order of the first writes matters. An element that is written before and after its array is
given back before the array, which then has the element as it was in between. -/
theorem words_applyBlock_run_ne :
    ∃ recorded ∈ (leveled.run
      [.call 0 .beginBlock, writeFirst 1, writeLevels 5 6, writeFirst 2]).state? 0,
      recorded.words ⟨0⟩ = [2, 6] ∧
    ∃ applied ∈ (leveled.run
      [.call 0 .beginBlock, writeFirst 1, writeLevels 5 6, writeFirst 2, .call 0 .endBlock,
        .call 0 (.applyBlock 0)]).state? 0,
      applied.words ⟨0⟩ = [5, 6] := by
  decide +kernel

end Host

end ShaderEffect
