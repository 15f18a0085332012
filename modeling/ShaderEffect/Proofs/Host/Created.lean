import ShaderEffect.Proofs.Link.Bound
import ShaderEffect.Proofs.Host.Effects
import ShaderEffect.Proofs.Image.Longer

/-!
# Effects that are created

What passes rely on when they apply states: all handles are those of nodes, every source is the one
that the image describes, and every program finds its inputs (`EffectState.WellLinked`). An effect
that is created is linked like this, and none is created if a resource cannot be bound.
-/

namespace ShaderEffect

/-- An effect with the sources that its image describes, in which nothing is missing. -/
structure EffectState.WellLinked (s : EffectState) : Prop where
  found : ∀ path h, s.tree.find? none path = some h → ∃ p, s.tree.node? h = some p
  placed : ∀ state ∈ s.linked.states, ∃ place, s.linked.stateAt? place = some state
  handles : ∀ state ∈ s.linked.states, ∀ h ∈ state.param :: state.source.leads,
    ∃ p, s.tree.node? h = some p
  /-- A state that no resource is for has its own value. -/
  unnamed : ∀ place state, s.linked.stateAt? place = some state →
    (∀ r ∈ s.linked.image.resources, Link.placeOf s.tree r ≠ some place) →
    state.source = .constant
  /-- Of the resources for a state the last one counts. -/
  named : ∀ place state r, s.linked.stateAt? place = some state →
    Link.IsLastFor s.tree place s.linked.image.resources r →
    ∃ p, s.tree.node? state.param = some p ∧ Link.Describes s.tree p.decl.type r state.source
  programs : ∀ state ∈ s.linked.states, ∀ p, Link.programOf state.source = some p →
    Link.Resolves s.tree s.linked.skip p.program
  shaders : ∀ h o program, some o ∈ s.objects h →
    o.shader?.bind (·.value.program) = some program →
    Link.Resolves s.tree s.linked.skip program

/-- An object that a parameter has is in the block of its root. -/
lemma LinkedEffect.exists_of_mem_objects (e : LinkedEffect) {m : Memory} {h : Handle}
    {o : EffectObject} (ho : some o ∈ e.objects m h) : ∃ p id j, e.tree.node? h = some p ∧
      e.roots[p.root]? = some id ∧ p.objects.Has j ∧
      (m.block id).toContents.objects[j]? = some (some o) := by
  rw [objects] at ho
  split at ho
  · rename_i p id hp hid
    obtain ⟨n, hn⟩ := List.mem_iff_getElem?.1 ho
    rw [Slice.getElem?_read] at hn
    split at hn
    · rename_i hlt
      obtain ⟨p', hp', hid'⟩ := e.blockOf?_eq_some.1 hid
      obtain rfl := Option.some.inj (hp.symm.trans hp')
      exact ⟨p, id, _, hp, hid', ⟨Nat.le_add_right .., Nat.add_lt_add_left hlt _⟩, hn⟩
    · cases hn
  · cases ho

namespace Host

variable {host host' : Host} {im : Image} {skip : List String} {i : Nat}

/-- What an effect is that was created without a pool: a linked image in blocks of its own. -/
lemma exists_of_create (h : host.create im skip none = .ok (i, host')) :
    ∃ l s, Link.link im skip host.memory.nextObject = .ok l ∧ host'.state? i = some s ∧
      s.tree = l.tree ∧ s.linked.techniques = l.techniques ∧ s.linked.image = im ∧
      s.linked.skip = skip ∧ ∀ (r id : Nat), s.linked.roots[r]? = some id →
        ∃ c, l.tree.initial[r]? = some c ∧ (s.memory.block id).toContents = c := by
  obtain ⟨⟨linked, between⟩, hlink, h⟩ := exists_of_bind_eq_ok h
  cases h
  obtain ⟨l, hl, rfl, rfl⟩ := exists_of_linkImage_eq_ok hlink
  let counted : Host := { host with memory := host.memory.newCounter.2 }
  refine ⟨l, _, hl, state?_addEffect .., rfl, rfl, rfl, rfl, fun r id hid => ?_⟩
  obtain ⟨hr, rfl⟩ := counted.eq_of_getElem?_ownRoots l hid
  have hc := Array.getElem?_eq_getElem hr
  exact ⟨_, hc, counted.toContents_block_withRoots l hc⟩

lemma linkImage_eq_error {pool : Option Nat} {counter : Nat} {e : EffectError}
    (h : Link.link im skip host.memory.nextObject = .error e) :
    host.linkImage im skip pool counter = .error e := by
  rw [linkImage, h]
  rfl

/-- No effect is created from an image that cannot be linked. -/
lemma create_eq_error {e : EffectError}
    (h : Link.link im skip host.memory.nextObject = .error e) :
    host.create im skip none = .error e := by
  let counted : Host := { host with memory := host.memory.newCounter.2 }
  have hlink : counted.linkImage im skip none host.memory.newCounter.1 = .error e :=
    linkImage_eq_error h
  exact congrArg (· >>= fun r => .ok (r.2.addEffect (.ofLinked r.1))) hlink

/-- An effect that is created is linked as its image describes; and if a resource of an image is for
no state, is of no known usage, or names what is not there, no effect is created. -/
theorem wellLinked_create (him : ∃ stored, Image.decode stored = .ok im) (host : Host)
    (skip : List String) :
    (∀ i host', host.create im skip none = .ok (i, host') →
      ∃ s, host'.state? i = some s ∧ s.linked.image = im ∧ s.linked.skip = skip ∧ s.WellLinked) ∧
    ∀ r ∈ im.resources, Link.Faulty (Link.start im) r →
      ∃ e, host.create im skip none = .error e := by
  obtain ⟨stored, hdecode⟩ := him
  have hformed := Image.WellFormed.of_decode hdecode
  refine ⟨fun i host' hcreate => ?_, fun r hr hfaulty => ?_⟩
  · obtain ⟨l, s, hlink, hs, htree, htechniques, himage, hskip, hblocks⟩ :=
      exists_of_create hcreate
    have hattaches := Link.attaches_link hlink
    have hlaid := hattaches.skeleton.laid (Link.laid_start im)
    have hsourced := hattaches.sourced (Link.sourced_start im)
    have hbound := Link.bound_link hformed hlink
    have hplace : ∀ place, s.linked.stateAt? place = Link.stateAt l place := fun place =>
      Link.stateAt_congr htree htechniques place
    have hstates : s.linked.states = Link.allStates l.tree l.techniques := by
      rw [LinkedEffect.states, htechniques, ← htree]
    have hplaced : ∀ state ∈ s.linked.states, ∃ place, Link.stateAt l place = some state :=
      fun state hstate => Link.exists_stateAt_of_mem_allStates (hstates ▸ hstate)
    have hnode : ∀ h, (∃ r, l.tree.root? h = some r) → ∃ p, s.tree.node? h = some p := by
      rintro h ⟨r, hr⟩
      obtain ⟨p, hp, -⟩ := Option.map_eq_some_iff.1 hr
      exact ⟨p, htree ▸ hp⟩
    refine ⟨s, hs, himage, hskip, ?_⟩
    refine ⟨fun path h hfind => ?_, fun state hstate => ?_, fun state hstate h hh => ?_, ?_, ?_,
      fun state hstate p hp => ?_, fun h o program ho hprogram => ?_⟩
    · exact hnode h (hlaid.owned h (.of_find? (htree ▸ hfind)))
    · obtain ⟨place, hat⟩ := hplaced state hstate
      exact ⟨place, (hplace place).trans hat⟩
    · rw [hstates] at hstate
      rcases List.mem_cons.1 hh with rfl | hh
      · exact hnode _ (hlaid.stateOwned state hstate)
      · exact hnode h (hlaid.owned h (hsourced state hstate h hh))
    · rw [himage, htree]
      exact fun place state hat => hbound.unnamed place state ((hplace place).symm.trans hat)
    · rw [himage, htree]
      exact fun place state r hat => hbound.named place state r ((hplace place).symm.trans hat)
    · obtain ⟨place, hat⟩ := hplaced state hstate
      rw [htree, hskip]
      exact hbound.programs place state p hat hp
    · obtain ⟨p, id, j, -, hid, -, hj⟩ := s.linked.exists_of_mem_objects ho
      obtain ⟨c, hc, hblock⟩ := hblocks p.root id hid
      rw [hblock] at hj
      obtain ⟨q, -, -, -, hq⟩ := hbound.objects p.root c hc j o hj
      rw [htree, hskip]
      exact hbound.shaders q.id o program hq hprogram
  · cases hlink : Link.link im skip host.memory.nextObject with
    | error e => exact ⟨e, create_eq_error hlink⟩
    | ok l => exact absurd hfaulty ((Link.bound_link hformed hlink).faultless r hr)

/-- The region of an effect with a parameter `on` and a pass of one state, and with a resource of
the given usage for that state, which names the parameter. -/
def switchRegion (usage : UInt8) : Bytes := #[
  0, 0, 0, 0, 3, 0, 0, 0, 111, 110, 0, 0,
  3, 0, 0, 0, 0, 0, 0, 0, 4, 0, 0, 0, 0, 0, 0, 0, 0, 0, 0, 0, 1, 0, 0, 0, 1, 0, 0, 0, 1, 0, 0, 0,
  2, 0, 0, 0, 0, 0, 0, 0, 0, 0, 0, 0, 0, 0, 0, 0, 0, 0, 0, 0, 1, 0, 0, 0, 1, 0, 0, 0, 1, 0, 0, 0,
  1, 0, 0, 0, 1, 0, 0, 0, 0, 0, 0, 0, 0, 0, 0, 0,
  12, 0, 0, 0, 40, 0, 0, 0, 0, 0, 0, 0, 0, 0, 0, 0,
  0, 0, 0, 0, 0, 0, 0, 0, 1, 0, 0, 0, 0, 0, 0, 0, 0, 0, 0, 0, 1, 0, 0, 0,
  7, 0, 0, 0, 0, 0, 0, 0, 44, 0, 0, 0, 72, 0, 0, 0,
  0, 0, 0, 0, 1, 0, 0, 0,
  0, 0, 0, 0, 0, 0, 0, 0, 255, 255, 255, 255, 0, 0, 0, 0, usage, 0, 0, 0, 3, 0, 0, 0,
  111, 110, 0, 0]

/-- The effect can be created if the state refers to the parameter, and not if its resource is of no
known usage. -/
theorem wellLinked_create_switch :
    (∃ im i host' s, ({} : Host).create im [] none = .ok (i, host') ∧ host'.state? i = some s ∧
      s.linked.image = im ∧ s.WellLinked) ∧
    ∃ im r, r ∈ im.resources ∧ Link.Faulty (Link.start im) r ∧
      ∃ e, ({} : Host).create im [] none = .error e := by
  have hdecode : ∀ usage im, (Image.readRecords.runAt (switchRegion usage) 76).toOption = some im →
      ∃ stored, Image.decode stored = .ok im := fun usage im him =>
    ⟨_, (Image.decode_region 76 (switchRegion usage)).trans (Image.eq_ok_of_toOption_eq_some him)⟩
  constructor
  · obtain ⟨⟨i, host'⟩, hcreate⟩ := Option.isSome_iff_exists.1
      (show ((Image.readRecords.runAt (switchRegion 1) 76).toOption.bind fun im =>
        (({} : Host).create im [] none).toOption).isSome = true by decide +kernel)
    obtain ⟨im, him, hcreate⟩ := Option.bind_eq_some_iff.1 hcreate
    have hcreate := Image.eq_ok_of_toOption_eq_some hcreate
    obtain ⟨s, hs, himage, -, hlinked⟩ :=
      (wellLinked_create (hdecode 1 im him) {} []).1 i host' hcreate
    exact ⟨im, i, host', s, hcreate, hs, himage, hlinked⟩
  · obtain ⟨im, him, r, hr, husage⟩ : ∃ im,
        (Image.readRecords.runAt (switchRegion 7) 76).toOption = some im ∧
          ∃ r ∈ im.resources, r.usage = 7 := by
      have hsome : ∃ im ∈ (Image.readRecords.runAt (switchRegion 7) 76).toOption,
          ∃ r ∈ im.resources, r.usage = 7 := by decide +kernel
      exact hsome
    have hfaulty : Link.Faulty (Link.start im) r :=
      .usage (by rw [husage]; decide) (by rw [husage]; decide) (by rw [husage]; decide)
    exact ⟨im, r, hr, hfaulty, (wellLinked_create (hdecode 7 im him) {} []).2 r hr hfaulty⟩

end Host

end ShaderEffect
