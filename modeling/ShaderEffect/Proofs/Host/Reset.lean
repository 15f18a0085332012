import ShaderEffect.Proofs.Host.Private
import ShaderEffect.Proofs.Link.Supplies
import ShaderEffect.Proofs.Pass.Commit
import ShaderEffect.Proofs.Pass.Dirty
import ShaderEffect.Proofs.Value.Grounded

/-!
# Resetting parameters

A parameter that is reset has the value that the image of its effect gives it, whatever was done
since, and whoever else has its storage. Nothing else changes, and every pass of every effect with
this storage has to take note (`Host.resetting_run`). Two shared parameters with one name may be in
the same effect too, so resetting one of them may change the other.
-/

namespace ShaderEffect

namespace Host

variable {host : Host} {use : Nat → BlockUse} {i j : Nat} {s u : EffectState} {h : Handle}
  {p : Parameter}

/-! ### Writes that come later -/

/-- Whatever is done, blocks keep their use and counters do not go back. -/
lemma exists_grows_run (hlayout : host.Layout use) (ops : List HostOperation) :
    ∃ use', (host.run ops).Layout use' ∧ Grows use use' host (host.run ops) := by
  induction ops generalizing host use with
  | nil => exact ⟨use, hlayout, .refl use host⟩
  | cons op rest ih =>
    obtain ⟨use₁, hsteps⟩ := steps_perform hlayout op
    obtain ⟨use', hlayout', hgrows⟩ := ih hsteps.layout
    exact ⟨use', hlayout', hsteps.grows.trans hgrows⟩

/-- A parameter whose block is written is dirty for all passes as they were applied before. -/
lemma isDirty_of_written (hlaid : host.LaidOut) (hu : host.state? j = some u)
    {later : List HostOperation} {op : HostOperation} {id : Nat}
    (hwritten : (host.run later).Written op id) {g : Handle} (hid : u.linked.blockOf? g = some id)
    (t q : Nat) :
    u.linked.isDirty ((host.run later).perform op).memory g (u.appliedAt t q) = true := by
  obtain ⟨use, hlayout, hfits⟩ := hlaid.fits hu
  obtain ⟨use', hlayout', hgrows⟩ := exists_grows_run hlayout later
  obtain ⟨use'', hsteps⟩ := steps_perform hlayout' op
  have howns := LinkedEffect.owns_of_blockOf? hid
  have hcounter : (use' id).counter = u.linked.counter := by
    rw [hgrows.use_eq id (hfits.lt_of_owns howns), hfits.counter_of_owns howns]
  have hstamp := hsteps.stamped id hwritten
  rw [hcounter] at hstamp
  refine LinkedEffect.isDirty_iff.2 ⟨id, hid, ?_⟩
  calc u.appliedAt t q ≤ host.memory.counter u.linked.counter := by
        rw [← (state?_eq_some.1 hu).2]
        exact appliedAt_le hlaid hu t q
    _ ≤ (host.run later).memory.counter u.linked.counter := hgrows.counter_le _
    _ < _ := hstamp

/-! ### What a reset changes -/

/-- A place of one parameter belongs to another one too: they are parts of one value, or bound to
the same entry. -/
def HasPlace (host : Host) (k : Storage) (i : Nat) (e : LinkedEffect) (h : Handle) (j : Nat)
    (e' : LinkedEffect) (g : Handle) (n : Nat) : Prop :=
  ∃ p q, e.tree.node? h = some p ∧ e'.tree.node? g = some q ∧
    (k.slice p).Has ((k.slice q).start + n) ∧
    (i = j ∧ e.tree.root? h = e'.tree.root? g ∨
      ∃ r name, host.Bound e h r name ∧ host.Bound e' g r name)

/-- A reset changes no place but those of the parameter, in whatever effects they are seen. -/
lemma hasPlace_of_resetValue (hreachable : host.Reachable) (hs : host.state? i = some s)
    (hu : host.state? j = some u) {k : Storage} {g : Handle} {n : Nat}
    (hne : (u.linked.values (s.linked.resetValue host.memory h) k g)[n]? ≠
      (u.linked.values host.memory k g)[n]?) : host.HasPlace k i s.linked h j u.linked g n := by
  obtain ⟨owner, howned⟩ := hreachable.owned
  obtain ⟨use, hlayout⟩ := hreachable.laidOut
  have hfits := hlayout.effects i s.effect (state?_eq_some.1 hs).1
  have hfits' := hlayout.effects j u.effect (state?_eq_some.1 hu).1
  cases hid : u.linked.blockOf? g with
  | none =>
    rw [u.linked.values_eq_nil hid, u.linked.values_eq_nil hid] at hne
    exact absurd rfl hne
  | some id =>
    obtain ⟨q, hq, -⟩ := u.linked.blockOf?_eq_some.1 hid
    rw [u.linked.values_eq_read hq hid, u.linked.values_eq_read hq hid, Slice.getElem?_read,
      Slice.getElem?_read] at hne
    have hn : n < (k.slice q).length := by
      by_contra hn
      rw [if_neg hn, if_neg hn] at hne
      exact hne rfl
    rw [if_pos hn, if_pos hn] at hne
    have haddress := (s.linked.changesWithin_resetValue id k _).resolve_left hne
    obtain ⟨p, hp, hid', hplace⟩ := LinkedEffect.addresses_singleton.1 haddress
    refine ⟨p, q, hp, hq, hplace, ?_⟩
    refine (howned.eq_or_bound (state?_eq_some.1 hs).1 (state?_eq_some.1 hu).1 hfits hfits' hp hq
      hid' hid).imp_left fun ⟨heq, hroot⟩ => ⟨heq, ?_⟩
    rw [Tree.root?_of_node? hp, Tree.root?_of_node? hq, hroot]

/-! ### Resets -/

/-- The image of an effect was read. -/
lemma exists_decode {ops : List HostOperation} (hops : ∀ op ∈ ops, op.FromStored)
    (hs : (run {} ops).state? i = some s) :
    ∃ stored, Image.decode stored = .ok s.linked.image := by
  obtain ⟨use, hlayout⟩ := laidOut_empty
  obtain ⟨use', tiles, -, htiled⟩ := tiled_run hops hlayout (@tiled_empty fun _ => [])
  exact (htiled.effects i s.effect (state?_eq_some.1 hs).1).image

/-- An effect is grounded in what its image was linked to when it was made. -/
lemma exists_grounded_link {ops : List HostOperation} (hops : ∀ op ∈ ops, op.FromStored)
    (hs : (run {} ops).state? i = some s) :
    ∃ n l, Link.link s.linked.image s.linked.skip n = .ok l ∧ s.Grounded l := by
  obtain ⟨l, hgrounded⟩ := exists_grounded hops hs
  have hreachable : (run {} ops).Reachable := ⟨ops, rfl⟩
  obtain ⟨use, -, hfits⟩ := hreachable.laidOut.fits hs
  obtain ⟨n, l', hlink, htree, -⟩ := hfits.linked
  exact ⟨n, l', hlink, { hgrounded with linking := .linked hlink, tree := htree }⟩

/-- What it comes to that a parameter is reset after operations were carried out. -/
structure Resetting (ops : List HostOperation) (i : Nat) (s : EffectState) (h : Handle)
    (p : Parameter) (s' : EffectState) : Prop where
  /-- The call succeeds. -/
  resetValue : s.resetValue h = .ok s'
  perform : ((run {} ops).perform (.call i (.reset h))).state? i = some s'
  /-- The image of the effect was read, and the node of the parameter stands for a value in it. -/
  image : ∃ stored, Image.decode stored = .ok s.linked.image
  value : ∃ place, s.linked.image.Contains p.node place
  /-- The words are those of this value. -/
  words : s'.words h = p.node.data .words
  /-- The objects are those that linking the image gave to the numbers of this value: of each number
  the one that the last data for it describes. -/
  objects : ∃ n l, Link.link s.linked.image s.linked.skip n = .ok l ∧ s.tree = l.tree ∧
    s'.objects h = (p.node.data .objects).map l.objects.get? ∧
    ∀ id, Supplied s.linked.image.supplies id (l.objects.get? id)
  /-- All that changes in memory is at places of the parameter. -/
  within : s.linked.ChangesWithin [h] s.memory s'.memory
  /-- No effect has other words or objects than before, except at places of the parameter. -/
  outside : ∀ j u u', (run {} ops).state? j = some u →
    ((run {} ops).perform (.call i (.reset h))).state? j = some u' → ∀ (k : Storage) g (n : Nat),
    (u'.values k g)[n]? = (u.values k g)[n]? ∨ (run {} ops).HasPlace k i s.linked h j u.linked g n
  /-- The parameter is dirty for every pass that any effect with its storage has applied. -/
  dirty : ∀ before after, ops = before ++ after → ∀ j u, (run {} before).state? j = some u →
    ∀ g id, u.linked.blockOf? g = some id → s.linked.blockOf? h = some id →
    ∀ t q, u.linked.isDirty s'.memory g (u.appliedAt t q) = true

/-- Every parameter can be reset, whatever was done. -/
theorem resetting_run {ops : List HostOperation} (hops : ∀ op ∈ ops, op.FromStored) {i : Nat}
    {s : EffectState} (hs : (run {} ops).state? i = some s) {h : Handle} {p : Parameter}
    (hp : s.tree.node? h = some p) : ∃ s', Resetting ops i s h p s' := by
  have hreachable : (run {} ops).Reachable := ⟨ops, rfl⟩
  obtain ⟨n, l, hlink, hgrounded⟩ := exists_grounded_link hops hs
  obtain ⟨s', hreset, -, hmemory, hwords, hobjects⟩ := hgrounded.exists_restored hp
  have hperform : (s.perform (run {} ops).device (.reset h)).state = s' := by
    rw [EffectState.perform, hreset]
    rfl
  have hs' := hperform ▸ state?_perform_call hs (.reset h)
  refine ⟨s', hreset, hs', exists_decode hops hs, (hgrounded.mirrors hp).value, hwords,
    ⟨n, l, hlink, hgrounded.tree, hobjects, Link.supplied_link hgrounded.image hlink⟩,
    hmemory ▸ s.linked.changesWithin_resetValue,
    fun j u u' hu hu' k g n => ?_, fun before after hsplit j u hu g b hb hb' t q => ?_⟩
  · refine or_iff_not_imp_left.2 fun hne => hasPlace_of_resetValue hreachable hs hu ?_
    rw [EffectState.values, EffectState.values, linked_perform hreachable.laidOut hu hu',
      (state?_eq_some.1 hu').2, ← (state?_eq_some.1 hs').2, hmemory, (state?_eq_some.1 hu).2,
      (state?_eq_some.1 hs).2] at hne
    exact hne
  · subst hsplit
    rw [run_append] at hs hs'
    have hbefore : (run {} before).Reachable := ⟨before, rfl⟩
    have hwritten : ((run {} before).run after).Written (.call i (.reset h)) b :=
      ⟨i, _, s, rfl, hs, h, List.mem_singleton_self h, hb'⟩
    rw [(state?_eq_some.1 hs').2]
    exact isDirty_of_written hbefore.laidOut hu hwritten hb t q

/-- An effect of two numbers that are shared and have one name. -/
def gauges : WrittenEffect where
  parameters := [⟨.scalar 3 "level", [.word 1], 1, []⟩, ⟨.scalar 3 "level", [.word 2], 1, []⟩]
  techniques := []
  objectCount := 1
  objectData := []
  resources := []

/-- Two effects and a clone share the level, which the first of them sets. -/
def shareGauges (im : Image) : List HostOperation :=
  [.createPool, .create im [] (some 0), .create im [] (some 0), .clone 1,
    .call 0 (.set ⟨0⟩ (.float ⟨5⟩))]

lemma fromStored_shareGauges {im : Image}
    (hdecode : Image.decode (Image.encode gauges).toArray = .ok im) :
    ∀ op ∈ shareGauges im, op.FromStored := fun op hop => by
  simp only [shareGauges, List.mem_cons, List.not_mem_nil, or_false] at hop
  rcases hop with rfl | rfl | rfl | rfl | rfl
  all_goals first | exact True.intro | exact ⟨_, hdecode⟩

/-- The clone resets the second gauge to its own first value, though the level was the first value
of the other gauge before it was set. -/
theorem resetting_run_shareGauges : ∃ im s s' p,
    Image.decode (Image.encode gauges).toArray = .ok im ∧
    (run {} (shareGauges im)).state? 2 = some s ∧ s.tree.node? ⟨1⟩ = some p ∧
    s.words ⟨1⟩ = [5] ∧ Resetting (shareGauges im) 2 s ⟨1⟩ p s' ∧ s'.words ⟨1⟩ = [2] := by
  obtain ⟨im, hdecode, s, hs, hbefore, p, hp, hafter⟩ : ∃ im,
      (Image.decode (Image.encode gauges).toArray).toOption = some im ∧
      ∃ s ∈ (run {} (shareGauges im)).state? 2, s.words ⟨1⟩ = [5] ∧
        ∃ p ∈ s.tree.node? ⟨1⟩, p.node.data .words = [2] := by
    decide +kernel
  have hok := Image.eq_ok_of_toOption_eq_some hdecode
  obtain ⟨s', hresetting⟩ := resetting_run (fromStored_shareGauges hok) hs hp
  exact ⟨im, s, s', p, hok, hs, hp, hbefore, hresetting, hresetting.words.trans hafter⟩

/-- A reset may change another parameter of the same effect: both gauges read the first value of the
one that is reset. -/
theorem not_resetValue_outside_gauges : ¬∀ ops, (∀ op ∈ ops, HostOperation.FromStored op) →
    ∀ i s s', (run {} ops).state? i = some s → ∀ h, s.resetValue h = .ok s' →
    ∀ g, s.tree.root? g ≠ s.tree.root? h → ∀ k : Storage, s'.values k g = s.values k g := by
  intro hall
  obtain ⟨im, hdecode, s, hs, s', hs', hroot, hbefore, hafter⟩ : ∃ im,
      (Image.decode (Image.encode gauges).toArray).toOption = some im ∧
      ∃ s ∈ (run {} (shareGauges im)).state? 0, ∃ s' ∈ (s.resetValue ⟨0⟩).toOption,
        s.tree.root? ⟨1⟩ ≠ s.tree.root? ⟨0⟩ ∧ s.words ⟨1⟩ = [5] ∧ s'.words ⟨1⟩ = [1] := by
    decide +kernel
  have hstored := fromStored_shareGauges (Image.eq_ok_of_toOption_eq_some hdecode)
  have hreset : s.resetValue ⟨0⟩ = .ok s' := Image.eq_ok_of_toOption_eq_some hs'
  have hsame : s'.words ⟨1⟩ = s.words ⟨1⟩ :=
    hall _ hstored 0 s s' hs ⟨0⟩ hreset ⟨1⟩ hroot .words
  rw [hbefore, hafter] at hsame
  exact absurd hsame (by decide)

end Host

end ShaderEffect
