import ShaderEffect.Proofs.Host.Bounded
import ShaderEffect.Proofs.Host.Cloning

/-!
# An effect and its clone

An effect and its clone have the blocks of bound parameters in common, and no others. So whatever is
done later, a write through one of them is seen through the other only if it is to a bound
parameter; and the clone resets its parameters to what the image gives them (`Host.cloning_run`).
-/

namespace ShaderEffect

/-- A part of what was mapped. -/
lemma Slice.read_map {α β : Type} (s : Slice) (f : α → β) (values : Array α) :
    s.read (values.map f) = (s.read values).map f := by
  refine List.ext_getElem? fun n => ?_
  rw [Slice.getElem?_read, List.getElem?_map, Slice.getElem?_read, Array.getElem?_map]
  split <;> rfl

namespace Host

variable {host host' : Host} {use : Nat → BlockUse} {owner : Nat → Owner} {i j : Nat}
  {s s' t : EffectState}

/-- Entries stay. -/
lemma entryOf?_run (h : host.LaidOut) {q : Nat} {name : String} {entry : PoolEntry}
    (hentry : host.entryOf? q name = some entry) (ops : List HostOperation) :
    (host.run ops).entryOf? q name = some entry := by
  induction ops generalizing host with
  | nil => exact hentry
  | cons op rest ih =>
    obtain ⟨use, hlayout⟩ := h
    obtain ⟨use', hsteps⟩ := steps_perform hlayout op
    exact ih ⟨use', hsteps.layout⟩ (hsteps.grows.entryOf? hentry)

namespace Clones

variable (h : host.Clones s host' s')
include h

lemma bound_iff {e : LinkedEffect} {handle : Handle} {q : Nat} {name : String} :
    host'.Bound e handle q name ↔ host.Bound e handle q name :=
  ⟨.mono fun q name _ hentry => h.entryOf?_eq q name ▸ hentry,
    .mono fun q name _ hentry => (h.entryOf?_eq q name).trans hentry⟩

/-- A parameter has its block in common with the clone exactly if it is bound. -/
lemma shares_iff (hlayout : host.Layout use) (howned : host.Owned owner)
    (hs : host.state? i = some s) {handle : Handle} {id : Nat}
    (hid : s.linked.blockOf? handle = some id) :
    s'.linked.blockOf? handle = some id ↔ ∃ q name, host.Bound s.linked handle q name := by
  have hperform := h.perform hs
  obtain ⟨use', hsteps⟩ := steps_perform hlayout (.clone i)
  obtain ⟨owner', howned'⟩ := owned_perform hlayout howned (.clone i)
  rw [hperform] at howned'
  have hlayout' : host'.Layout use' := hperform ▸ hsteps.layout
  obtain ⟨t, ht, heffect, -⟩ := h.others i s hs
  have hi := (state?_eq_some.1 ht).1
  have hn := (state?_eq_some.1 h.state).1
  rw [heffect] at hi
  have hfits := hlayout'.effects i s.effect hi
  have hfits' := hlayout'.effects _ s'.effect hn
  constructor
  · intro hid'
    obtain ⟨p, hp, -⟩ := s.linked.blockOf?_eq_some.1 hid
    obtain ⟨p', hp', -⟩ := s'.linked.blockOf?_eq_some.1 hid'
    rcases howned'.eq_or_bound hi hn hfits hfits' hp hp' hid hid' with
      ⟨heq, -⟩ | ⟨q, name, hbound, -⟩
    · exact absurd heq (Nat.ne_of_lt (lt_of_state? hs))
    · exact ⟨q, name, h.bound_iff.1 hbound⟩
  · rintro ⟨q, name, hbound⟩
    obtain ⟨entry, hentry, hblock⟩ := (h.bound_iff.2 hbound).blockOf?_eq hfits
    obtain ⟨entry', hentry', hblock'⟩ :=
      (h.bound_iff.2 (h.twin.bound hbound)).blockOf?_eq hfits'
    obtain rfl := Option.some.inj (hentry.symm.trans hentry')
    exact hblock'.trans (hblock.symm.trans hid)

/-- Later the effect and the clone are still twins, and bound to what the effect was bound to. -/
lemma bound_of_run (hlayout' : host'.LaidOut) (hs : host.state? i = some s)
    (hj : j = i ∨ j = host.effects.size) {later : List HostOperation}
    (ht : (host'.run later).state? j = some t) :
    s.linked.Twin t.linked ∧ ∀ handle q name, (host'.run later).Bound t.linked handle q name →
      host.Bound s.linked handle q name := by
  obtain ⟨u, hu, htwin⟩ : ∃ u, host'.state? j = some u ∧ s.linked.Twin u.linked := by
    rcases hj with rfl | rfl
    · obtain ⟨u, hu, heffect, -⟩ := h.others j s hs
      have hlinked : u.linked = s.linked := congrArg Effect.linked heffect
      exact ⟨u, hu, hlinked ▸ .refl u.linked⟩
    · exact ⟨s', h.state, h.twin⟩
  obtain ⟨use, hlayout⟩ := hlayout'
  have hlinked := linked_run ⟨use, hlayout⟩ hu ht
  refine ⟨hlinked ▸ htwin, fun handle q name hbound => ?_⟩
  have hfits := hlayout.effects j u.effect (state?_eq_some.1 hu).1
  rw [hlinked] at hbound
  have hbound' := hbound.of_mono
    (fun q name entry hentry => entryOf?_run ⟨use, hlayout⟩ hentry later) hfits
  exact htwin.bound_iff.1 (h.bound_iff.1 hbound')

/-- What a call to one of them changes of the values of the other one, it writes to parameters that
are bound, at places that these have in common. -/
lemma changes_of_run (hreachable : host'.Reachable) (hs : host.state? i = some s) {j' : Nat}
    (hj : j = i ∨ j = host.effects.size) (hj' : j' = i ∨ j' = host.effects.size) (hne : j ≠ j')
    {later : List HostOperation} (ht : (host'.run later).state? j = some t) {u u' : EffectState}
    (hu : (host'.run later).state? j' = some u) {op : Operation}
    (hu' : ((host'.run later).perform (.call j op)).state? j' = some u') {k : Storage}
    {handle : Handle} (hchanged : u'.values k handle ≠ u.values k handle) :
    ∃ written ∈ t.written op, ∃ q name p p' n, host.Bound s.linked written q name ∧
      host.Bound s.linked handle q name ∧ s.tree.node? written = some p ∧
      s.tree.node? handle = some p' ∧ (k.slice p).Has n ∧ (k.slice p').Has n := by
  have hlaid := hreachable.laidOut
  obtain ⟨use, hlayout⟩ := (hreachable.run later).laidOut
  obtain ⟨owner, howned⟩ := (hreachable.run later).owned
  obtain ⟨htwin, hbounds⟩ := h.bound_of_run hlaid hs hj ht
  obtain ⟨htwin', hbounds'⟩ := h.bound_of_run hlaid hs hj' hu
  obtain ⟨j₀, op', t₀, hop, ht₀, hcause⟩ := changes_values hlayout howned hu hu' hchanged
  obtain ⟨rfl, rfl⟩ := HostOperation.call.inj hop
  obtain rfl := Option.some.inj (ht.symm.trans ht₀)
  obtain ⟨written, hwritten, hseen⟩ := hcause.resolve_right fun hcomputed => hne hcomputed.1
  obtain ⟨q, name, p, p', n, hbound, hbound', hp, hp', hn, hn'⟩ :=
    hseen.resolve_left fun hsame => hne hsame.1
  exact ⟨written, hwritten, q, name, p, p', n, hbounds written q name hbound,
    hbounds' handle q name hbound', (htwin.node? written).symm.trans hp,
    (htwin'.node? handle).symm.trans hp', hn, hn'⟩

end Clones

/-- What twins held at first is the same but for the identities of objects, however often their
image is linked. -/
lemma exists_initial {effect : Effect} (hfits : effect.Fits host use i) {e : LinkedEffect}
    (htwin : e.Twin effect.linked) {r : Nat} {c : Contents}
    (hc : effect.linked.tree.initial[r]? = some c) (n : Nat) : ∃ l c',
      Link.link e.image e.skip n = .ok l ∧ l.tree.initial[r]? = some c' ∧
      c'.anonymous = c.anonymous := by
  obtain ⟨n', l', hlink', htree, -⟩ := hfits.linked
  rw [htwin.image, htwin.skip] at hlink'
  obtain ⟨l, hlink, hrelinked⟩ := Link.exists_relink hlink' n
  have hr := congrArg (·[r]?) hrelinked.initial
  simp only [Array.getElem?_map, ← htree, hc, Option.map_some] at hr
  obtain ⟨c', hc', heq⟩ := Option.map_eq_some_iff.1 hr
  exact ⟨l, c', hlink, hc', heq⟩

/-- A parameter that is reset has the value that linking the image gives it, with objects that
differ in their identities only. -/
lemma exists_reset (hlayout : host.Layout use) (hbounded : host.Bounded)
    (ht : host.state? i = some t) {e : LinkedEffect} (htwin : e.Twin t.linked) {handle : Handle}
    {p : Parameter} (hp : e.tree.node? handle = some p) : ∃ t', t.resetValue handle = .ok t' ∧
      ∀ n, ∃ l c, Link.link e.image e.skip n = .ok l ∧ l.tree.initial[p.root]? = some c ∧
      t'.words handle = p.words.read c.words ∧
      (t'.objects handle).map (·.map EffectObject.anonymous) =
        (p.objects.read c.objects).map (·.map EffectObject.anonymous) := by
  obtain ⟨heffect, hmemory⟩ := state?_eq_some.1 ht
  have hp' := (htwin.node? handle).trans hp
  obtain ⟨id, c, hid, hlt, hc, hstop⟩ := hbounded.slices i t ht handle p hp'
  obtain ⟨t', hreset, hlinked, hwritten⟩ := EffectState.exists_resetValue hp'
  rw [← hmemory] at hlt hstop
  have hvalues : ∀ k : Storage, t'.values k handle = (k.slice p).read (k.values c) := fun k => by
    rw [EffectState.values, hlinked, hwritten]
    exact LinkedEffect.values_resetValue hp' hid hlt hc hstop k
  refine ⟨t', hreset, fun n => ?_⟩
  obtain ⟨l, c', hlink, hc', halike⟩ :=
    exists_initial (hlayout.effects i t.effect heffect) htwin hc n
  refine ⟨l, c', hlink, hc', ?_, ?_⟩
  · have hwords : c'.anonymous.words = c.anonymous.words := congrArg Contents.words halike
    exact (hvalues .words).trans (congrArg p.words.read hwords.symm)
  · have hobjects : c'.objects.map (·.map EffectObject.anonymous) =
        c.objects.map (·.map EffectObject.anonymous) := congrArg Contents.objects halike
    rw [← Slice.read_map, hobjects, Slice.read_map]
    exact congrArg (List.map _) (hvalues .objects)

/-- What cloning an effect comes to, at once and later. -/
structure Cloning (ops : List HostOperation) (i : Nat) (s : EffectState) (host' : Host)
    (s' : EffectState) : Prop extends Clones (run {} ops) s host' s' where
  /-- A parameter has its block in common with the clone exactly if it is bound to an entry. -/
  shares : ∀ h id, s.linked.blockOf? h = some id →
    (s'.linked.blockOf? h = some id ↔ ∃ q name, (run {} ops).Bound s.linked h q name)
  /-- Whatever was done meanwhile, a call to one of them changes values of the other one only at
  places of bound parameters that it writes. -/
  apart : ∀ j j', j = i ∧ j' = (run {} ops).effects.size ∨ j = (run {} ops).effects.size ∧ j' = i →
    ∀ later op t u u', (host'.run later).state? j = some t → (host'.run later).state? j' = some u →
      ((host'.run later).perform (.call j op)).state? j' = some u' → ∀ (k : Storage) h,
      u'.values k h ≠ u.values k h → ∃ w ∈ t.written op, ∃ q name p p' n,
        (run {} ops).Bound s.linked w q name ∧ (run {} ops).Bound s.linked h q name ∧
        s.tree.node? w = some p ∧ s.tree.node? h = some p' ∧ (k.slice p).Has n ∧ (k.slice p').Has n
  /-- Whatever was done meanwhile, a parameter of the clone that is reset has the value that linking
  the image gives it, with objects that differ in their identities only. -/
  reset : ∀ later, (∀ op ∈ ops ++ later, op.FromStored) →
    ∀ t, (host'.run later).state? (run {} ops).effects.size = some t → ∀ h p,
    s.tree.node? h = some p → ∃ t', t.resetValue h = .ok t' ∧ ∀ n, ∃ l c,
      Link.link s.linked.image s.linked.skip n = .ok l ∧ l.tree.initial[p.root]? = some c ∧
      t'.words h = p.words.read c.words ∧
      (t'.objects h).map (·.map EffectObject.anonymous) =
        (p.objects.read c.objects).map (·.map EffectObject.anonymous)

/-- Every effect can be cloned, whatever was done. -/
theorem cloning_run (ops : List HostOperation) {i : Nat} {s : EffectState}
    (hs : (run {} ops).state? i = some s) : ∃ host' s', Cloning ops i s host' s' := by
  have hreachable : (run {} ops).Reachable := ⟨ops, rfl⟩
  obtain ⟨use, hlayout⟩ := hreachable.laidOut
  obtain ⟨owner, howned⟩ := hreachable.owned
  obtain ⟨host', s', h⟩ := exists_clones hlayout howned hs
  have hperform := h.perform hs
  have hreachable' : host'.Reachable := hperform ▸ hreachable.run [.clone i]
  have hlt := lt_of_state? hs
  refine ⟨host', s', h, fun handle id hid => h.shares_iff hlayout howned hs hid, ?_, ?_⟩
  · rintro j j' hpair later op t u u' ht hu hu' k handle hchanged
    refine h.changes_of_run hreachable' hs ?_ ?_ ?_ ht hu hu' hchanged <;> omega
  · intro later hstored t ht handle p hp
    have hrun : host'.run later = run {} (ops ++ .clone i :: later) := by
      rw [run_append, run_cons, hperform]
    have hbounded : (host'.run later).Bounded := by
      rw [hrun]
      refine .of_run fun op hop => ?_
      rcases List.mem_append.1 hop with hop | hop
      · exact hstored op (List.mem_append_left _ hop)
      · rcases List.mem_cons.1 hop with rfl | hop
        · exact trivial
        · exact hstored op (List.mem_append_right _ hop)
    obtain ⟨htwin, -⟩ := h.bound_of_run hreachable'.laidOut hs (.inr rfl) ht
    obtain ⟨use', hlayout'⟩ := (hreachable'.run later).laidOut
    exact exists_reset hlayout' hbounded ht htwin hp

/-- The number of a lamp is written before the lamp is cloned. -/
def cloneLamp (im : Image) : List HostOperation :=
  [.createPool, .create im [] (some 0), .call 0 (.set ⟨3⟩ (.float ⟨5⟩))]

/-- A lamp is cloned with the number that was written, and the clone resets it to that of the
image. -/
theorem cloning_run_cloneLamp : ∃ im s host' s' t,
    Image.decode (Image.encode lamp).toArray = .ok im ∧
    (run {} (cloneLamp im)).state? 0 = some s ∧ Cloning (cloneLamp im) 0 s host' s' ∧
    s'.words ⟨0⟩ = [5, 9] ∧ s'.resetValue ⟨0⟩ = .ok t ∧ t.words ⟨0⟩ = [7, 9] := by
  obtain ⟨im, hdecode, s, hs, hwords, p, hp, l, hlink, c, hc, hinitial⟩ : ∃ im,
      (Image.decode (Image.encode lamp).toArray).toOption = some im ∧
      ∃ s ∈ (run {} (cloneLamp im)).state? 0, s.words ⟨0⟩ = [5, 9] ∧
        ∃ p ∈ s.tree.node? ⟨0⟩, ∃ l ∈ (Link.link s.linked.image s.linked.skip 0).toOption,
          ∃ c ∈ l.tree.initial[p.root]?, p.words.read c.words = [7, 9] := by
    decide +kernel
  have hok := Image.eq_ok_of_toOption_eq_some hdecode
  obtain ⟨host', s', hcloning⟩ := cloning_run (cloneLamp im) hs
  have hstored : ∀ op ∈ cloneLamp im ++ [], op.FromStored := fun op hop => by
    simp only [cloneLamp, List.append_nil, List.mem_cons, List.not_mem_nil, or_false] at hop
    rcases hop with rfl | rfl | rfl
    all_goals first | exact True.intro | exact ⟨_, hok⟩
  obtain ⟨t, hreset, hvalues⟩ := hcloning.reset [] hstored s' hcloning.state ⟨0⟩ p hp
  obtain ⟨l', c', hlink', hc', hwords', -⟩ := hvalues 0
  rw [hlink'] at hlink
  obtain rfl : l' = l := Option.some.inj hlink
  obtain rfl : c' = c := Option.some.inj (hc'.symm.trans hc)
  exact ⟨im, s, host', s', t, hok, hs, hcloning, (hcloning.values .words ⟨0⟩).trans hwords, hreset,
    hwords'.trans hinitial⟩

end Host

end ShaderEffect
