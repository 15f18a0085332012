import ShaderEffect.Proofs.Host.Sharing

/-!
# What a write is seen in

A write to a parameter is seen in what is above and below it in the same effect, and in parameters
that are bound to the same entry of a pool. Everything else is private (`Host.Private`), and what an
operation does to the values of effects comes to this (`Host.changes_values`).
-/

namespace ShaderEffect

/-! ### Nodes of one root -/

namespace Tree

variable {t : Tree} {techniques : List Technique}

lemma Under.root?_eq (hlaid : Link.Laid t techniques) {h j : Handle} (hj : t.Under h j) :
    t.root? j = t.root? h := by
  induction hj with
  | refl => rfl
  | member _ hp hmem ih => rw [hlaid.members _ _ hp _ hmem, ← ih, root?_of_node? hp]

end Tree

namespace Effect.Fits

variable {host : Host} {use : Nat → BlockUse} {i : Nat} {effect : Effect}
  (hfits : effect.Fits host use i)
include hfits

lemma nested : Link.Nested effect.linked.tree effect.linked.techniques := by
  obtain ⟨n, l, hlink, htree, htechniques⟩ := hfits.linked
  rw [htree, htechniques]
  exact Link.nested_link hlink

/-- Nodes of one root that address a place in common are above or below one another. -/
lemma under_or_under {h h' : Handle} {p p' : Parameter} (hp : effect.linked.tree.node? h = some p)
    (hp' : effect.linked.tree.node? h' = some p') (hroot : p.root = p'.root) {k : Storage} {j : Nat}
    (hj : (k.slice p).Has j) (hj' : (k.slice p').Has j) :
    effect.linked.tree.Under h h' ∨ effect.linked.tree.Under h' h := by
  have hr : p.root < effect.linked.tree.initial.size :=
    hfits.proper.laid.root_lt h p.root (Tree.root?_of_node? hp)
  obtain ⟨flags, top, hnests⟩ := hfits.nested.roots p.root hr
  exact hnests.nested h h' p p' (Nat.zero_le _) (Nat.zero_le _) hp hp' rfl hroot.symm k j hj hj'

/-- What has the root of a top-level parameter is under it, and has its flags. -/
lemma under_of_mem_top {t h : Handle} (ht : t ∈ effect.linked.tree.top) {p q : Parameter}
    (hp : effect.linked.tree.node? t = some p) (hq : effect.linked.tree.node? h = some q)
    (hroot : q.root = p.root) : effect.linked.tree.Under t h ∧ q.flags = p.flags := by
  obtain ⟨p', hp', hnests⟩ := hfits.nested.top t ht
  obtain rfl : p' = p := Option.some.inj (hp'.symm.trans hp)
  obtain ⟨i, hi, hunder⟩ := hnests.under h q (Nat.zero_le _) hq hroot
  exact ⟨List.mem_singleton.1 hi ▸ hunder, hnests.flags_eq h q (Nat.zero_le _) hq hroot⟩

end Effect.Fits

namespace Host

/-- A parameter is bound to an entry: it is a parameter that shares the entry, or a member or
element of one. -/
def Bound (host : Host) (e : LinkedEffect) (h : Handle) (q : Nat) (name : String) : Prop :=
  ∃ t, host.Shares e t q name ∧ e.tree.Under t h

/-- What keeps to itself: parameters that are not flagged as shared, have no name, or have other
shapes than the entry of their name, annotations, values of states, everything in an effect without
a pool, and the members and elements of all these. -/
inductive Private (host : Host) (e : LinkedEffect) : Handle → Prop
  | plain {t : Handle} {p : Parameter} : t ∈ e.tree.top → e.tree.node? t = some p →
      p.flags &&& sharedFlag = 0 → Private host e t
  | unnamed {t : Handle} {p : Parameter} : t ∈ e.tree.top → e.tree.node? t = some p →
      p.decl.name = none → Private host e t
  | mismatch {t : Handle} {p : Parameter} {q : Nat} {name : String} {entry : PoolEntry} :
      t ∈ e.tree.top → e.tree.node? t = some p → p.decl.name = some name → e.pool = some q →
      host.entryOf? q name = some entry → entry.shapes ≠ p.node.shapes → Private host e t
  | alone {h : Handle} : e.pool = none → Private host e h
  | note {h a : Handle} {p : Parameter} : e.tree.node? h = some p → a ∈ p.annotations →
      Private host e a
  | outer {a : Handle} : a ∈ Growth.annotationsOf e.techniques → Private host e a
  | value {s : StateEntry} : s ∈ e.states → Private host e s.param
  | member {h h' : Handle} : Private host e h → e.tree.Under h h' → Private host e h'

variable {host : Host} {owner : Nat → Owner} {use : Nat → BlockUse} {i : Nat} {effect : Effect}

/-- What is bound has the block of the entry. -/
lemma Bound.blockOf?_eq (hfits : effect.Fits host use i) {h : Handle} {q : Nat} {name : String}
    (hbound : host.Bound effect.linked h q name) : ∃ entry, host.entryOf? q name = some entry ∧
      effect.linked.blockOf? h = some entry.block := by
  obtain ⟨t, hshares, hunder⟩ := hbound
  obtain ⟨r, entry, hr, hentry, hblock⟩ := hshares.root_eq hfits
  exact ⟨entry, hentry, LinkedEffect.blockOf?_eq_some_root.2
    ⟨r, (hunder.root?_eq hfits.proper.laid).trans hr, hblock⟩⟩

lemma SharesRoot.bound (hfits : effect.Fits host use i) {r q : Nat} {name : String}
    (hshares : host.SharesRoot effect.linked r q name) {h : Handle} {p : Parameter}
    (hp : effect.linked.tree.node? h = some p) (hr : p.root = r) :
    host.Bound effect.linked h q name := by
  obtain ⟨t, hshares, hroot⟩ := hshares
  obtain ⟨p', hp', hr'⟩ := Option.map_eq_some_iff.1 hroot
  exact ⟨t, hshares, (hfits.under_of_mem_top hshares.top hp' hp (hr.trans hr'.symm)).1⟩

lemma Bound.mono {host' : Host} (hentries : ∀ q name entry, host.entryOf? q name = some entry →
    host'.entryOf? q name = some entry) {e : LinkedEffect} {h : Handle} {q : Nat} {name : String}
    (hbound : host.Bound e h q name) : host'.Bound e h q name :=
  hbound.imp fun _ ⟨hshares, hunder⟩ => ⟨hshares.mono hentries, hunder⟩

/-- What an effect is bound to later, when there are more entries, it was bound to before. -/
lemma Bound.of_mono {host' : Host} (hentries : ∀ q name entry, host.entryOf? q name = some entry →
    host'.entryOf? q name = some entry) (hfits : effect.Fits host use i) {h : Handle} {q : Nat}
    {name : String} (hbound : host'.Bound effect.linked h q name) :
    host.Bound effect.linked h q name := by
  obtain ⟨t, ⟨htop, hshares, hpool, p, entry', hp, hentry', hshapes⟩, hunder⟩ := hbound
  obtain ⟨entry, hentry⟩ := exists_entryOf? hfits htop hshares hpool
  obtain rfl := Option.some.inj ((hentries q name entry hentry).symm.trans hentry')
  exact ⟨t, ⟨htop, hshares, hpool, p, entry, hp, hentry, hshapes⟩, hunder⟩

/-- A top-level parameter is bound only if it shares the entry itself. -/
lemma Bound.shares_of_mem_top (hfits : effect.Fits host use i) {t : Handle}
    (ht : t ∈ effect.linked.tree.top) {q : Nat} {name : String}
    (hbound : host.Bound effect.linked t q name) : host.Shares effect.linked t q name := by
  have hlaid := hfits.proper.laid
  obtain ⟨t', hshares, hunder⟩ := hbound
  exact hlaid.top t' hshares.top t ht (hunder.root?_eq hlaid).symm ▸ hshares

/-- What is bound has the root and the flags of a parameter that shares the entry. -/
lemma Bound.exists_node (hfits : effect.Fits host use i) {h : Handle} {q : Nat} {name : String}
    (hbound : host.Bound effect.linked h q name) : ∃ t u p, host.Shares effect.linked t q name ∧
      effect.linked.tree.node? t = some u ∧ effect.linked.tree.node? h = some p ∧
      p.root = u.root ∧ p.flags = u.flags := by
  obtain ⟨t, hshares, hunder⟩ := hbound
  obtain ⟨u, -, hu, -⟩ := hshares.shapes
  have hroot := hunder.root?_eq hfits.proper.laid
  rw [Tree.root?_of_node? hu] at hroot
  obtain ⟨p, hp, hr⟩ := Option.map_eq_some_iff.1 hroot
  exact ⟨t, u, p, hshares, hu, hp, hr, (hfits.under_of_mem_top hshares.top hu hp hr).2⟩

lemma not_bound_of_flags_eq (hfits : effect.Fits host use i) {a : Handle} {p : Parameter}
    (hp : effect.linked.tree.node? a = some p) (hflags : p.flags = annotationFlag) {q : Nat}
    {name : String} : ¬host.Bound effect.linked a q name := fun hbound => by
  obtain ⟨t, u, p', hshares, hu, hp', -, hsame⟩ := hbound.exists_node hfits
  obtain rfl : p = p' := Option.some.inj (hp.symm.trans hp')
  obtain ⟨hshared, -⟩ := hshares.of_node hu
  rw [← hsame, hflags] at hshared
  exact hshared (by decide)

/-- What is private is not bound. -/
lemma Private.not_bound (hfits : effect.Fits host use i) {h : Handle}
    (hprivate : host.Private effect.linked h) (q : Nat) (name : String) :
    ¬host.Bound effect.linked h q name := by
  have hlaid := hfits.proper.laid
  induction hprivate with
  | @plain t p ht hp hflags =>
    intro hbound
    obtain ⟨hshared, -⟩ := (hbound.shares_of_mem_top hfits ht).of_node hp
    exact hshared hflags
  | @unnamed t p ht hp hname =>
    intro hbound
    obtain ⟨-, hnamed, -⟩ := (hbound.shares_of_mem_top hfits ht).of_node hp
    rw [hname] at hnamed
    cases hnamed
  | @mismatch t p q' name' entry ht hp hname hpool hentry hshapes =>
    intro hbound
    have hshares := hbound.shares_of_mem_top hfits ht
    obtain ⟨-, hnamed, entry', hentry', hshapes'⟩ := hshares.of_node hp
    obtain rfl : name' = name := Option.some.inj (hname.symm.trans hnamed)
    obtain rfl : q' = q := Option.some.inj (hpool.symm.trans hshares.pool)
    obtain rfl := Option.some.inj (hentry.symm.trans hentry')
    exact hshapes hshapes'
  | alone hpool =>
    rintro ⟨t, hshares, -⟩
    rw [hshares.pool] at hpool
    cases hpool
  | note hp ha =>
    obtain ⟨p, hp', hflags⟩ := hfits.nested.notes _ _ hp _ ha
    exact not_bound_of_flags_eq hfits hp' hflags
  | outer ha =>
    obtain ⟨p, hp, hflags⟩ := hfits.nested.outer _ ha
    exact not_bound_of_flags_eq hfits hp hflags
  | @value s hs =>
    rintro ⟨t, hshares, hunder⟩
    exact hlaid.apart t (.top hshares.top) s hs (hunder.root?_eq hlaid).symm
  | @member h h' _ hunder ih =>
    intro hbound
    obtain ⟨t, u, p, hshares, hu, hp, hroot, -⟩ := hbound.exists_node hfits
    have hsame := hunder.root?_eq hlaid
    rw [Tree.root?_of_node? hp] at hsame
    obtain ⟨v, hv, hr⟩ := Option.map_eq_some_iff.1 hsame.symm
    exact ih ⟨t, hshares, (hfits.under_of_mem_top hshares.top hu hv (hr.trans hroot)).1⟩

/-- Parameters with one block are of one root of one effect, or bound to one entry. -/
lemma Owned.eq_or_bound (howned : host.Owned owner) {i j : Nat} {effect effect' : Effect}
    (hi : host.effects[i]? = some (some effect)) (hj : host.effects[j]? = some (some effect'))
    (hfits : effect.Fits host use i) (hfits' : effect'.Fits host use j) {h h' : Handle}
    {p p' : Parameter} (hp : effect.linked.tree.node? h = some p)
    (hp' : effect'.linked.tree.node? h' = some p') {b : Nat}
    (hb : effect.linked.blockOf? h = some b) (hb' : effect'.linked.blockOf? h' = some b) :
    i = j ∧ p.root = p'.root ∨ ∃ q name, host.Bound effect.linked h q name ∧
      host.Bound effect'.linked h' q name := by
  obtain ⟨u, hu, hroot⟩ := effect.linked.blockOf?_eq_some.1 hb
  obtain rfl : u = p := Option.some.inj (hu.symm.trans hp)
  obtain ⟨u', hu', hroot'⟩ := effect'.linked.blockOf?_eq_some.1 hb'
  obtain rfl : u' = p' := Option.some.inj (hu'.symm.trans hp')
  exact (howned.eq_or_shares hi hj hroot hroot').imp_right fun ⟨q, name, hshares, hshares'⟩ =>
    ⟨q, name, hshares.bound hfits hp rfl, hshares'.bound hfits' hp' rfl⟩

/-! ### What an operation changes -/

/-- What an operation changes of the blocks there are is at places that the parameters address which
it writes, or in what a pass computes. -/
lemma changes_perform (hlayout : host.Layout use) (op : HostOperation) {id : Nat}
    (hid : id < host.memory.blocks.size) {k : Storage} {n : Nat}
    (hne : (k.values ((host.perform op).memory.block id).toContents)[n]? ≠
      (k.values (host.memory.block id).toContents)[n]?) : ∃ i op' s, op = .call i op' ∧
      host.state? i = some s ∧ (s.linked.Addresses (s.written op') id k n ∨
        op'.computes = true ∧ s.linked.Computed id) := by
  obtain ⟨use', hsteps⟩ := steps_perform hlayout op
  have hcall : ∃ i op' s, op = .call i op' ∧ host.state? i = some s := by
    rcases hsteps.unchanged_or_stamped id hid with hsame | ⟨hcause, -⟩
    · rw [hsame] at hne
      exact absurd rfl hne
    · rcases hcause with ⟨i, op', s, hop, hs, -⟩ | ⟨i, op', s, hop, hs, -⟩ <;>
        exact ⟨i, op', s, hop, hs⟩
  obtain ⟨i, op', s, rfl, hs⟩ := hcall
  have hlaid : host.LaidOut := ⟨use, hlayout⟩
  have hleaves := EffectState.leaves_perform (hlaid.proper hs) (hlaid.counter_lt hs) host.device op'
  rw [(perform_call hs op').1, ← (state?_eq_some.1 hs).2] at hne
  exact ⟨i, op', s, rfl, hs, (hleaves.within id k n).resolve_left hne⟩

/-- A value that an operation writes to one parameter is seen in another one: it is above or below
it in the same effect, or both are bound to one entry and have a place in common. -/
def Seen (host : Host) (k : Storage) (i : Nat) (e : LinkedEffect) (h : Handle) (j : Nat)
    (e' : LinkedEffect) (h' : Handle) : Prop :=
  i = j ∧ (e.tree.Under h h' ∨ e.tree.Under h' h) ∨
    ∃ q name p p' n, host.Bound e h q name ∧ host.Bound e' h' q name ∧
      e.tree.node? h = some p ∧ e'.tree.node? h' = some p' ∧ (k.slice p).Has n ∧ (k.slice p').Has n

/-- The value of a parameter changes only if a parameter is written that is seen in it, or if it is
the value of a state that a pass of the same effect computes. -/
theorem changes_values (hlayout : host.Layout use) (howned : host.Owned owner) {op : HostOperation}
    {j : Nat} {s s' : EffectState} (hs : host.state? j = some s)
    (hs' : (host.perform op).state? j = some s') {k : Storage} {h' : Handle}
    (hne : s'.values k h' ≠ s.values k h') : ∃ i op' sᵢ, op = .call i op' ∧
      host.state? i = some sᵢ ∧
      ((∃ h ∈ sᵢ.written op', host.Seen k i sᵢ.linked h j s.linked h') ∨
        i = j ∧ op'.computes = true ∧
          ∃ id, s.linked.blockOf? h' = some id ∧ sᵢ.linked.Computed id) := by
  have hlinked := linked_perform ⟨use, hlayout⟩ hs hs'
  have hfits := hlayout.effects j s.effect (state?_eq_some.1 hs).1
  rw [EffectState.values, EffectState.values, hlinked] at hne
  cases hid : s.linked.blockOf? h' with
  | none =>
    rw [s.linked.values_eq_nil hid, s.linked.values_eq_nil hid] at hne
    exact absurd rfl hne
  | some id =>
    obtain ⟨p', hp', hroot⟩ := s.linked.blockOf?_eq_some.1 hid
    rw [s.linked.values_eq_read hp' hid, s.linked.values_eq_read hp' hid,
      (state?_eq_some.1 hs).2, (state?_eq_some.1 hs').2] at hne
    obtain ⟨n, hn, hne⟩ := (k.slice p').exists_has_of_read_ne hne
    obtain ⟨i, op', sᵢ, rfl, hsᵢ, hcause⟩ :=
      changes_perform hlayout op (hfits.uses p'.root id hroot).1 hne
    have hfitsᵢ := hlayout.effects i sᵢ.effect (state?_eq_some.1 hsᵢ).1
    refine ⟨i, op', sᵢ, rfl, hsᵢ, hcause.imp ?_ fun ⟨hcomputes, hcomputed⟩ =>
      ⟨hfitsᵢ.eq_of_computed hfits hcomputed ⟨p'.root, hroot⟩, hcomputes, id, rfl, hcomputed⟩⟩
    rintro ⟨h, hh, p, hp, hid', hn'⟩
    refine ⟨h, hh, ?_⟩
    rcases howned.eq_or_bound (state?_eq_some.1 hsᵢ).1 (state?_eq_some.1 hs).1 hfitsᵢ hfits hp hp'
      hid' hid with ⟨rfl, hsame⟩ | ⟨q, name, hbound, hbound'⟩
    · obtain rfl := Option.some.inj (hsᵢ.symm.trans hs)
      exact .inl ⟨rfl, hfits.under_or_under hp hp' hsame hn' hn⟩
    · exact .inr ⟨q, name, p, p', n, hbound, hbound', hp, hp', hn', hn⟩

end Host

end ShaderEffect
