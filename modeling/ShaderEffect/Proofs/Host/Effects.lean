import ShaderEffect.Proofs.Host.Steps

/-!
# Effects over time

What an operation on a host means for one effect: calls to the effect take it to its next state, its
number is not used again once it was dropped, and no other operation touches more of it than the
parameters it writes (`Host.later_perform`).
-/

namespace ShaderEffect

namespace Host

variable {host : Host}

/-! ### States -/

lemma effects_bindPool (tree : Tree) (pool : Option Nat) (roots : Array Nat) :
    (host.bindPool tree pool roots).2.effects = host.effects := by
  rw [bindPool]
  split <;> rfl

lemma memory_bindPool (tree : Tree) (pool : Option Nat) (roots : Array Nat) :
    (host.bindPool tree pool roots).2.memory = host.memory := by
  rw [bindPool]
  split <;> rfl

lemma devices_bindPool (tree : Tree) (pool : Option Nat) (roots : Array Nat) :
    (host.bindPool tree pool roots).2.devices = host.devices := by
  rw [bindPool]
  split <;> rfl

lemma same_linkImage {image : Image} {skip : List String} {pool : Option Nat} {counter : Nat}
    {linked : LinkedEffect} {host' : Host}
    (h : host.linkImage image skip pool counter = .ok (linked, host')) :
    host'.effects = host.effects ∧ host'.devices = host.devices := by
  obtain ⟨l, -, h⟩ := exists_of_bind_eq_ok h
  cases h
  exact ⟨effects_bindPool .., devices_bindPool ..⟩

/-- What an effect is made on: the host itself, or the host with a counter more if the effect gets
no pool. -/
structure MadeOn (use : Nat → BlockUse) (host base : Host) (image : Image) (skip : List String)
    (pool : Option Nat) (linked : LinkedEffect) (host' : Host) : Prop where
  layout : base.Layout use
  blocks : base.memory.blocks = host.memory.blocks
  effects : base.effects = host.effects
  pools : base.pools = host.pools
  linkImage : ∃ pool' counter, (∀ q, pool' = some q → pool = some q) ∧
    (∀ p, pool' = some p → ∃ pool, base.pools[p]? = some pool ∧ pool.counter = counter) ∧
    base.linkImage image skip pool' counter = .ok (linked, host')

lemma exists_of_create_eq_ok {use : Nat → BlockUse} (hlayout : host.Layout use) {image : Image}
    {skip : List String} {pool : Option Nat} {i : Nat}
    {host' : Host} (h : host.create image skip pool = .ok (i, host')) : ∃ base linked made,
      MadeOn use host base image skip pool linked made ∧ made.effects = host.effects ∧
      host' = (made.addEffect (.ofLinked linked)).2 := by
  rw [create] at h
  split at h
  · rename_i P hbind
    obtain ⟨p, rfl, hlookup⟩ := Option.bind_eq_some_iff.1 hbind
    obtain ⟨⟨linked, made⟩, hlink, h⟩ := exists_of_bind_eq_ok h
    cases h
    exact ⟨host, linked, made, ⟨hlayout, rfl, rfl, rfl, some p, P.counter, fun _ => id,
      fun q hq => ⟨P, Option.some.inj hq ▸ hlookup, rfl⟩, hlink⟩, (same_linkImage hlink).1, rfl⟩
  · obtain ⟨⟨linked, made⟩, hlink, h⟩ := exists_of_bind_eq_ok h
    cases h
    refine ⟨_, linked, made, ⟨hlayout.newCounter.1, rfl, rfl, rfl, none, _, ?_, ?_, hlink⟩,
      (same_linkImage hlink).1, rfl⟩ <;> exact fun _ hq => by cases hq

/-- An operation that neither calls nor drops an effect adds at most one, which is not begun. -/
lemma effects_perform (host : Host) {op : HostOperation} (hop : ∀ i op', op ≠ .call i op')
    (hdrop : ∀ i, op ≠ .drop i) :
    ((host.perform op).effects = host.effects ∨ ∃ effect : Effect, effect.phase = .idle ∧
      (host.perform op).effects = host.effects.push (some effect)) ∧
    ∀ d, (∀ calls, op ≠ .send d calls) → (host.perform op).device d = host.device d := by
  cases op with
  | createPool => exact ⟨.inl rfl, fun _ _ => rfl⟩
  | create image skip pool =>
    rw [perform]
    cases hcreate : host.create image skip pool with
    | error e => exact ⟨.inl rfl, fun _ _ => rfl⟩
    | ok result =>
      rw [create] at hcreate
      split at hcreate
      all_goals
        obtain ⟨⟨linked, host'⟩, hlink, hcreate⟩ := exists_of_bind_eq_ok hcreate
        cases hcreate
        obtain ⟨heffects, hdevices⟩ := same_linkImage hlink
        refine ⟨.inr ⟨Effect.ofLinked linked, rfl, congrArg (Array.push · _) heffects⟩,
          fun d _ => ?_⟩
        simp only [device, addEffect, hdevices]
  | clone i =>
    rw [perform]
    cases hs : host.state? i with
    | none => exact ⟨.inl rfl, fun _ _ => rfl⟩
    | some s =>
      simp only
      cases hclone : host.clone s.effect with
      | error e => exact ⟨.inl rfl, fun _ _ => rfl⟩
      | ok result =>
        obtain ⟨⟨linked, host'⟩, hlink, hclone⟩ := exists_of_bind_eq_ok hclone
        cases hclone
        obtain ⟨heffects, hdevices⟩ := same_linkImage hlink
        refine ⟨.inr ⟨_, rfl, congrArg (Array.push · _) heffects⟩, fun d _ => ?_⟩
        simp only [device, addEffect, hdevices]
  | drop i => exact absurd rfl (hdrop i)
  | share => exact ⟨.inl rfl, fun _ _ => rfl⟩
  | send d calls =>
    refine ⟨.inl rfl, fun d' hd' => ?_⟩
    rw [perform, device_send, if_neg]
    rintro rfl
    exact hd' calls rfl
  | call i op => exact absurd rfl (hop i op)

/-- A call leaves the state it comes to, and sends its device calls. -/
lemma perform_call {i : Nat} {s : EffectState} (hs : host.state? i = some s) (op : Operation) :
    (host.perform (.call i op)).memory = (s.perform host.device op).state.memory ∧
      (host.perform (.call i op)).effects =
        host.effects.setIfInBounds i (some (s.perform host.device op).state.effect) ∧
      ∀ d, (host.perform (.call i op)).device d =
        if s.sendsTo op = some d then (host.device d).applyAll (s.perform host.device op).calls
        else host.device d := by
  rw [perform, hs]
  simp only
  split
  · rename_i d' hd'
    refine ⟨rfl, rfl, fun d => ?_⟩
    rw [device_send, hd']
    by_cases h : d' = d
    · subst h
      rw [if_pos rfl, if_pos rfl]
      rfl
    · rw [if_neg h, if_neg fun hd => h (Option.some.inj hd)]
      rfl
  · rename_i hd'
    refine ⟨rfl, rfl, fun d => ?_⟩
    rw [hd', if_neg fun h => by cases h]
    rfl

/-- An effect that is there after a call is the one that was called, or was there before. -/
lemma effects_perform_call {i j : Nat} {s : EffectState} (hs : host.state? i = some s)
    {op : Operation} {effect : Effect}
    (heffect : (host.perform (.call i op)).effects[j]? = some (some effect)) :
    i = j ∧ effect = (s.perform host.device op).state.effect ∨
      i ≠ j ∧ host.effects[j]? = some (some effect) := by
  rw [(perform_call hs op).2.1] at heffect
  exact effects_setState host i j (s.perform host.device op).state heffect

lemma pools_perform_call (host : Host) (i : Nat) (op : Operation) :
    (host.perform (.call i op)).pools = host.pools := by
  rw [perform]
  split
  · dsimp only
    split <;> rfl
  · rfl

lemma lt_of_state? {i : Nat} {s : EffectState} (hs : host.state? i = some s) :
    i < host.effects.size :=
  (Array.getElem?_eq_some_iff.1 (state?_eq_some.1 hs).1).1

lemma state?_addEffect (host : Host) (effect : Effect) :
    (host.addEffect effect).2.state? host.effects.size = some ⟨host.memory, effect⟩ :=
  state?_eq_some.2 ⟨Array.getElem?_push_size, rfl⟩

lemma state?_perform_call {i : Nat} {s : EffectState} (hs : host.state? i = some s)
    (op : Operation) :
    (host.perform (.call i op)).state? i = some (s.perform host.device op).state := by
  obtain ⟨hmemory, heffects, -⟩ := perform_call hs op
  rw [state?_eq_some, hmemory, heffects]
  exact ⟨Array.getElem?_setIfInBounds_self_of_lt (lt_of_state? hs), rfl⟩

lemma perform_call_of_none {i : Nat} (hs : host.state? i = none) (op : Operation) :
    host.perform (.call i op) = host := by
  rw [perform, hs]

lemma size_effects_perform (host : Host) (op : HostOperation) :
    host.effects.size ≤ (host.perform op).effects.size := by
  by_cases hop : ∃ i op', op = .call i op'
  · obtain ⟨i, op', rfl⟩ := hop
    cases hs : host.state? i with
    | none => exact Nat.le_of_eq (by rw [perform_call_of_none hs])
    | some s =>
      exact Nat.le_of_eq (by rw [(perform_call hs op').2.1, Array.size_setIfInBounds])
  by_cases hdrop : ∃ i, op = .drop i
  · obtain ⟨i, rfl⟩ := hdrop
    exact Nat.le_of_eq (Array.size_setIfInBounds ..).symm
  have hcall : ∀ i op', op ≠ .call i op' := fun i op' h => hop ⟨i, op', h⟩
  obtain ⟨h | ⟨effect, -, h⟩, -⟩ := host.effects_perform hcall fun i h => hdrop ⟨i, h⟩
  · exact Nat.le_of_eq (by rw [h])
  · rw [h, Array.size_push]
    exact Nat.le_succ _

lemma size_effects_run (host : Host) (ops : List HostOperation) :
    host.effects.size ≤ (host.run ops).effects.size := by
  induction ops generalizing host with
  | nil => exact Nat.le_refl _
  | cons op rest ih => exact Nat.le_trans (host.size_effects_perform op) (ih _)

/-- An effect that is there after an operation was there before, in a state that changed only if the
operation is a call to it. -/
theorem state?_perform {i : Nat} (hi : i < host.effects.size) {op : HostOperation}
    {s' : EffectState} (hs' : (host.perform op).state? i = some s') :
    ∃ s, host.state? i = some s ∧
      ((∃ op', op = .call i op' ∧ s' = (s.perform host.device op').state) ∨
        (∀ op', op ≠ .call i op') ∧ op ≠ .drop i ∧ s'.effect = s.effect) := by
  obtain ⟨heffect', -⟩ := state?_eq_some.1 hs'
  have hsame : ∀ {P : EffectState → Prop}, host.effects[i]? = some (some s'.effect) →
      (∀ op', op ≠ .call i op') → op ≠ .drop i → ∃ s, host.state? i = some s ∧ (P s ∨
        (∀ op', op ≠ .call i op') ∧ op ≠ .drop i ∧ s'.effect = s.effect) :=
    fun heffect hcall hdrop =>
      ⟨⟨host.memory, s'.effect⟩, state?_eq_some.2 ⟨heffect, rfl⟩, .inr ⟨hcall, hdrop, rfl⟩⟩
  by_cases hop : ∃ j op', op = .call j op'
  · obtain ⟨j, op', rfl⟩ := hop
    by_cases hij : j = i
    · subst hij
      cases hs : host.state? j with
      | none =>
        rw [perform_call_of_none hs, hs] at hs'
        cases hs'
      | some s =>
        rw [state?_perform_call hs] at hs'
        exact ⟨s, rfl, .inl ⟨op', rfl, (Option.some.inj hs').symm⟩⟩
    · refine hsame ?_ (fun _ h => hij (HostOperation.call.inj h).1) fun h => by cases h
      cases hs : host.state? j with
      | none => rwa [perform_call_of_none hs] at heffect'
      | some s =>
        rwa [(perform_call hs op').2.1, Array.getElem?_setIfInBounds_ne hij] at heffect'
  have hcall : ∀ j op', op ≠ .call j op' := fun j op' h => hop ⟨j, op', h⟩
  by_cases hdrop : ∃ j, op = .drop j
  · obtain ⟨j, rfl⟩ := hdrop
    rw [perform, Host.drop, Array.getElem?_setIfInBounds] at heffect'
    split at heffect'
    · split at heffect' <;> cases heffect'
    · rename_i hij
      exact hsame heffect' (hcall i) fun h => hij (HostOperation.drop.inj h)
  have hnotDrop : ∀ j, op ≠ .drop j := fun j h => hdrop ⟨j, h⟩
  obtain ⟨h | ⟨effect, -, h⟩, -⟩ := host.effects_perform hcall hnotDrop
  · exact hsame (h ▸ heffect') (hcall i) (hnotDrop i)
  · rw [h, Array.getElem?_push, if_neg (Nat.ne_of_lt hi)] at heffect'
    exact hsame heffect' (hcall i) (hnotDrop i)

lemma exists_state?_of_run {i : Nat} (hi : i < host.effects.size) {ops : List HostOperation}
    {s' : EffectState} (hs' : (host.run ops).state? i = some s') : ∃ s, host.state? i = some s := by
  induction ops generalizing host with
  | nil => exact ⟨s', hs'⟩
  | cons op rest ih =>
    obtain ⟨s, hs⟩ := ih (Nat.lt_of_lt_of_le hi (size_effects_perform host op)) hs'
    obtain ⟨s₀, hs₀, -⟩ := state?_perform hi hs
    exact ⟨s₀, hs₀⟩

/-- A device that nobody calls stays as it is. -/
lemma device_perform {d : Nat} {op : HostOperation} (hsend : ∀ calls, op ≠ .send d calls)
    (hcalls : ∀ j op' s, op = .call j op' → host.state? j = some s → s.sendsTo op' ≠ some d) :
    (host.perform op).device d = host.device d := by
  by_cases hcall : ∃ j op', op = .call j op'
  · obtain ⟨j, op', rfl⟩ := hcall
    cases hs : host.state? j with
    | none => rw [perform_call_of_none hs]
    | some s => rw [(perform_call hs op').2.2, if_neg (hcalls j op' s rfl hs)]
  by_cases hdrop : ∃ j, op = .drop j
  · obtain ⟨j, rfl⟩ := hdrop
    rfl
  exact (host.effects_perform (fun j op' h => hcall ⟨j, op', h⟩) fun j h => hdrop ⟨j, h⟩).2 d hsend

/-- A call that is refused calls no device. -/
lemma device_perform_of_refused {i d : Nat} {s : EffectState} (hs : host.state? i = some s)
    {op : Operation} {e : CallError} (hrefused : s.perform host.device op = s.refuse e) :
    (host.perform (.call i op)).device d = host.device d := by
  rw [(perform_call hs op).2.2, hrefused]
  split <;> rfl

lemma device_perform_of_others {i d : Nat} {s : EffectState} {op : HostOperation}
    (hs : host.state? i = some s) (hsend : ∀ calls, op ≠ .send d calls)
    (hothers : ∀ j op' s, op = .call j op' → j ≠ i → host.state? j = some s →
      s.sendsTo op' ≠ some d)
    (hcall : ∀ op', op = .call i op' → s.sendsTo op' = none) :
    (host.perform op).device d = host.device d := by
  refine device_perform hsend fun j op' s₁ heq hs₁ => ?_
  by_cases hij : j = i
  · subst hij
    obtain rfl := Option.some.inj (hs.symm.trans hs₁)
    rw [hcall op' heq]
    exact fun h => by cases h
  · exact hothers j op' s₁ heq hij hs₁

/-! ### Blocks -/

namespace LaidOut

variable {i : Nat} {s : EffectState}

lemma fits (h : host.LaidOut) (hs : host.state? i = some s) :
    ∃ use, host.Layout use ∧ s.effect.Fits host use i := by
  obtain ⟨use, hlayout⟩ := h
  exact ⟨use, hlayout, hlayout.effects i s.effect (state?_eq_some.1 hs).1⟩

lemma proper (h : host.LaidOut) (hs : host.state? i = some s) : s.linked.Proper := by
  obtain ⟨use, -, hfits⟩ := h.fits hs
  exact hfits.proper

lemma counter_lt (h : host.LaidOut) (hs : host.state? i = some s) :
    s.linked.counter < s.memory.counters.size := by
  obtain ⟨use, -, hfits⟩ := h.fits hs
  rw [(state?_eq_some.1 hs).2]
  exact hfits.counter_lt

/-- No block of an effect is stamped later than its counter. -/
lemma version_le (h : host.LaidOut) (hs : host.state? i = some s) {id : Nat}
    (hid : s.linked.Owns id) :
    (s.memory.block id).version ≤ s.memory.counter s.linked.counter := by
  obtain ⟨use, hlayout, hfits⟩ := h.fits hs
  rw [(state?_eq_some.1 hs).2, ← hfits.counter_of_owns hid]
  exact hlayout.versions id

lemma perform (h : host.LaidOut) (op : HostOperation) : (host.perform op).LaidOut := by
  obtain ⟨use, hlayout⟩ := h
  obtain ⟨use', hsteps⟩ := steps_perform hlayout op
  exact ⟨use', hsteps.layout⟩

end LaidOut

/-- What an effect was linked to does not change. -/
lemma linked_perform (h : host.LaidOut) {i : Nat} {s s' : EffectState} {op : HostOperation}
    (hs : host.state? i = some s) (hs' : (host.perform op).state? i = some s') :
    s'.linked = s.linked := by
  obtain ⟨s₀, hs₀, ⟨op', rfl, rfl⟩ | ⟨-, -, heffect⟩⟩ := state?_perform (lt_of_state? hs) hs'
  · obtain rfl := Option.some.inj (hs.symm.trans hs₀)
    exact (EffectState.leaves_perform (h.proper hs) (h.counter_lt hs) host.device op').linked
  · obtain rfl := Option.some.inj (hs.symm.trans hs₀)
    exact congrArg Effect.linked heffect

/-- What holds of an effect at first and is kept by every operation holds after a run that did not
drop it. -/
lemma state_induction {condition : Host → HostOperation → Prop} {motive : Host → EffectState → Prop}
    {i : Nat}
    (hstep : ∀ {host op s s'}, host.LaidOut → host.state? i = some s →
      (host.perform op).state? i = some s' → condition host op → motive host s →
      motive (host.perform op) s')
    {host : Host} (h : host.LaidOut) {s s' : EffectState} (hs : host.state? i = some s)
    {ops : List HostOperation} (hops : Keeps condition host ops)
    (hs' : (host.run ops).state? i = some s') (hmotive : motive host s) :
    motive (host.run ops) s' := by
  induction ops generalizing host s with
  | nil =>
    obtain rfl := Option.some.inj (hs.symm.trans hs')
    exact hmotive
  | cons op rest ih =>
    obtain ⟨s₁, hs₁⟩ := exists_state?_of_run
      (Nat.lt_of_lt_of_le (lt_of_state? hs) (size_effects_perform host op)) hs'
    exact ih (h.perform op) hs₁ hops.2 hs' (hstep h hs hs₁ hops.1 hmotive)

lemma keeps_true (host : Host) (ops : List HostOperation) :
    Keeps (fun _ _ => True) host ops := by
  induction ops generalizing host with
  | nil => trivial
  | cons op rest ih => exact ⟨trivial, ih _⟩

lemma linked_run (h : host.LaidOut) {i : Nat} {s s' : EffectState} (hs : host.state? i = some s)
    {ops : List HostOperation} (hs' : (host.run ops).state? i = some s') :
    s'.linked = s.linked :=
  state_induction (motive := fun _ s' => s'.linked = s.linked)
    (fun h hs hs' _ heq => (linked_perform h hs hs').trans heq) h hs (keeps_true host ops) hs' rfl

end Host

/-- From one memory to a later one, the blocks of an effect changed only as far as they were written
or computed, and what was written is stamped. -/
structure LinkedEffect.Later (e : LinkedEffect) (written computed : Nat → Prop)
    (m m' : Memory) : Prop where
  counter_le : m.counter e.counter ≤ m'.counter e.counter
  size_words : ∀ id, e.Owns id → (m'.block id).words.size = (m.block id).words.size
  size_objects : ∀ id, e.Owns id → (m'.block id).objects.size = (m.block id).objects.size
  unchanged_or_stamped : ∀ id, e.Owns id → m'.block id = m.block id ∨
    (written id ∨ computed id) ∧ m.counter e.counter < (m'.block id).version
  stamped : ∀ id, e.Owns id → written id → m.counter e.counter < (m'.block id).version

/-- What an operation does to the blocks of an effect. -/
theorem Host.later_perform {host : Host} (h : host.LaidOut) {i : Nat} {s : EffectState}
    (hs : host.state? i = some s) (op : HostOperation) :
    s.linked.Later (host.Written op)
      (fun id => s.linked.Computed id ∧ ∃ op', op = .call i op' ∧ op'.computes = true) s.memory
      (host.perform op).memory := by
  obtain ⟨use, hlayout, hfits⟩ := h.fits hs
  obtain ⟨use', hsteps⟩ := steps_perform hlayout op
  rw [(state?_eq_some.1 hs).2]
  refine ⟨hsteps.grows.counter_le _, fun id hid => hsteps.size_words id (hfits.lt_of_owns hid),
    fun id hid => hsteps.size_objects id (hfits.lt_of_owns hid), fun id hid => ?_,
    fun id hid hwritten => hfits.counter_of_owns hid ▸ hsteps.stamped id hwritten⟩
  have hstamp := hsteps.unchanged_or_stamped id (hfits.lt_of_owns hid)
  rw [hfits.counter_of_owns hid] at hstamp
  refine hstamp.imp_right fun ⟨hcause, hlt, _⟩ => ⟨hcause.imp_right ?_, hlt⟩
  rintro ⟨j, op', s', rfl, hs', hcomputes, hcomputed⟩
  have hij := (hlayout.effects j s'.effect (state?_eq_some.1 hs').1).eq_of_computed hfits hcomputed
    hid
  subst hij
  obtain rfl := Option.some.inj (hs.symm.trans hs')
  exact ⟨hcomputed, op', rfl, hcomputes⟩

end ShaderEffect
