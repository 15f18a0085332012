import Mathlib.Data.List.Induction
import ShaderEffect.Proofs.Host.Cloning
import ShaderEffect.Proofs.Host.Stores

/-!
# What shared parameters hold

Whatever effects were made, cloned, dropped and written to, a parameter that is bound to an entry of
a pool reads what was last stored through any effect that is bound to the entry, and at first what
the first effect held that declares the name (`Host.Latest`). What a write stores is what its
arguments say (`EffectState.writes`). No other parameters have anything in common
(`Host.sharing_run`).
-/

namespace ShaderEffect

/-- A place of the block of an entry. -/
structure PoolPlace where
  pool : Nat
  name : String
  storage : Storage
  place : Nat

namespace Host

/-- A write through an effect stores a value at a place of an entry: its parameter is bound to the
entry. -/
def StoresAt (host : Host) (e : LinkedEffect) (w : Write) (c : PoolPlace)
    (v : c.storage.Value) : Prop :=
  host.Bound e w.h c.pool c.name ∧ ∃ p, e.tree.node? w.h = some p ∧
    (c.storage.slice p).Has c.place ∧
    w.value? p c.storage (c.place - (c.storage.slice p).start) = some v

/-- An operation gives a place of an entry a value. -/
inductive Gives (host : Host) (c : PoolPlace) : HostOperation → c.storage.Value → Prop
  /-- The first effect is made that declares the name: it provides its initial value. -/
  | first {image : Image} {skip : List String} {s : EffectState} {t : Handle} {p : Parameter}
      {contents : Contents} {v : c.storage.Value} : host.entryOf? c.pool c.name = none →
      (host.perform (.create image skip (some c.pool))).state? host.effects.size = some s →
      s.linked.pool = some c.pool → s.tree.top.find? (s.tree.shares c.name) = some t →
      s.tree.node? t = some p → s.tree.initial[p.root]? = some contents →
      (c.storage.values contents)[c.place]? = some v →
      Gives host c (.create image skip (some c.pool)) v
  /-- A parameter that is bound to the entry is written. If a call writes several parameters, the
  last one that stores something at the place gives the value. -/
  | write {i : Nat} {op : Operation} {s : EffectState} {before after : List Write} {w : Write}
      {v : c.storage.Value} : host.state? i = some s → s.writes op = before ++ w :: after →
      host.StoresAt s.linked w c v → (∀ w' ∈ after, ∀ v', ¬host.StoresAt s.linked w' c v') →
      Gives host c (.call i op) v

/-- In a run, a place of an entry was last given a value. -/
def Latest (c : PoolPlace) (v : c.storage.Value) (ops : List HostOperation) : Prop :=
  ∃ before op after, ops = before ++ op :: after ∧ (run {} before).Gives c op v ∧
    Keeps (fun host op => ∀ v, ¬host.Gives c op v) (run {} (before ++ [op])) after

variable {host : Host} {owner : Nat → Owner} {use : Nat → BlockUse}

lemma keeps_append {condition : Host → HostOperation → Prop} {ops rest : List HostOperation} :
    Keeps condition host (ops ++ rest) ↔
      Keeps condition host ops ∧ Keeps condition (host.run ops) rest := by
  induction ops generalizing host with
  | nil => exact ⟨fun h => ⟨trivial, h⟩, And.right⟩
  | cons op ops ih =>
    rw [List.cons_append, Keeps, ih, Keeps, and_assoc]
    rfl

lemma run_snoc (ops : List HostOperation) (op : HostOperation) :
    host.run (ops ++ [op]) = (host.run ops).perform op :=
  run_append host ops [op]

namespace Latest

variable {c : PoolPlace} {v : c.storage.Value} {ops : List HostOperation} {op : HostOperation}

lemma of_gives (h : (run {} ops).Gives c op v) : Latest c v (ops ++ [op]) :=
  ⟨ops, op, [], rfl, h, trivial⟩

/-- An operation that gives no value leaves the last one. -/
lemma snoc (h : Latest c v ops) (hop : ∀ v, ¬(run {} ops).Gives c op v) :
    Latest c v (ops ++ [op]) := by
  obtain ⟨before, last, after, rfl, hgives, hkeeps⟩ := h
  refine ⟨before, last, after ++ [op], by simp, hgives, keeps_append.2 ⟨hkeeps, ?_, trivial⟩⟩
  rwa [← run_append, List.append_assoc, List.singleton_append]

end Latest

/-! ### The last value is one -/

/-- An operation gives a place one value. -/
lemma Gives.unique {c : PoolPlace} {op : HostOperation} {v v' : c.storage.Value}
    (h : host.Gives c op v) (h' : host.Gives c op v') : v = v' := by
  cases h with
  | first _ hs _ ht hp hcontents hv =>
    cases h' with
    | first _ hs' _ ht' hp' hcontents' hv' =>
      obtain rfl := Option.some.inj (hs.symm.trans hs')
      obtain rfl := Option.some.inj (ht.symm.trans ht')
      obtain rfl := Option.some.inj (hp.symm.trans hp')
      obtain rfl := Option.some.inj (hcontents.symm.trans hcontents')
      exact Option.some.inj (hv.symm.trans hv')
  | @write i op s before after w _ hs hwrites hstores hafter =>
    cases h' with
    | @write _ _ _ before' after' w' _ hs' hwrites' hstores' hafter' =>
      obtain rfl := Option.some.inj (hs.symm.trans hs')
      -- Neither of the writes is after the other one.
      have hsame : w = w' := by
        rcases List.append_eq_append_iff.1 (hwrites.symm.trans hwrites') with
          ⟨_ | ⟨x, mid⟩, -, hrest⟩ | ⟨_ | ⟨x, mid⟩, -, hrest⟩
        · exact (List.cons.inj hrest).1
        · rw [List.cons_append, List.cons.injEq] at hrest
          exact absurd hstores' (hafter w' (by simp [hrest.2]) _)
        · exact (List.cons.inj hrest).1.symm
        · rw [List.cons_append, List.cons.injEq] at hrest
          exact absurd hstores (hafter' w (by simp [hrest.2]) _)
      subst hsame
      obtain ⟨-, p, hp, -, hv⟩ := hstores
      obtain ⟨-, p', hp', -, hv'⟩ := hstores'
      obtain rfl := Option.some.inj (hp.symm.trans hp')
      exact Option.some.inj (hv.symm.trans hv')

namespace Latest

variable {c : PoolPlace} {v v' : c.storage.Value} {ops : List HostOperation}

/-- Nothing gives a value after the last operation that does. -/
lemma length_le {before before' after after' : List HostOperation} {op op' : HostOperation}
    (heq : before ++ op :: after = before' ++ op' :: after')
    (hkeeps : Keeps (fun host op => ∀ v, ¬host.Gives c op v) (run {} (before ++ [op])) after)
    (hgives : (run {} before').Gives c op' v) : before'.length ≤ before.length := by
  rcases List.append_eq_append_iff.1 heq with ⟨_ | ⟨x, mid⟩, rfl, hrest⟩ | ⟨mid, rfl, -⟩
  · simp
  · rw [List.cons_append, List.cons.injEq] at hrest
    obtain ⟨rfl, rfl⟩ := hrest
    have hnone := (keeps_append.1 hkeeps).2.1
    rw [← run_append, List.append_assoc, List.singleton_append] at hnone
    exact absurd hgives (hnone v)
  · simp

/-- A place was last given one value. -/
lemma unique (h : Latest c v ops) (h' : Latest c v' ops) : v = v' := by
  obtain ⟨before, op, after, rfl, hgives, hkeeps⟩ := h
  obtain ⟨before', op', after', heq, hgives', hkeeps'⟩ := h'
  have hlength : before.length = before'.length :=
    Nat.le_antisymm (length_le heq.symm hkeeps' hgives) (length_le heq hkeeps hgives')
  obtain ⟨rfl, hrest⟩ := List.append_inj heq hlength
  obtain ⟨rfl, -⟩ := List.cons.inj hrest
  exact hgives.unique hgives'

end Latest

/-! ### Values of entries -/

/-- The entry of a name that had none is made by the first effect that declares the name, with what
this holds at first. -/
lemma entryOf?_perform (hlayout : host.Layout use) (howned : host.Owned owner) {op : HostOperation}
    {q : Nat} {name : String} {entry : PoolEntry} (hnone : host.entryOf? q name = none)
    (hentry : (host.perform op).entryOf? q name = some entry) : ∃ image skip s t p contents,
      op = .create image skip (some q) ∧
      (host.perform op).state? host.effects.size = some s ∧ s.linked.pool = some q ∧
      s.tree.top.find? (s.tree.shares name) = some t ∧ s.tree.node? t = some p ∧
      s.tree.initial[p.root]? = some contents ∧
      ((host.perform op).memory.block entry.block).toContents = contents := by
  have hsame : (host.perform op).entryOf? q name ≠ host.entryOf? q name := by
    rw [hnone, hentry]
    exact fun h => by cases h
  cases op with
  | createPool => exact absurd (entryOf?_createPool host q name) hsame
  | drop i | share | send d calls => exact absurd rfl hsame
  | call i op => exact absurd (entryOf?_call host i op q name) hsame
  | create image skip pool =>
    rw [perform] at hentry hsame ⊢
    cases hcreate : host.create image skip pool with
    | error e => exact absurd (by rw [hcreate]) hsame
    | ok result =>
      obtain ⟨k, host'⟩ := result
      rw [hcreate] at hentry
      obtain ⟨base, linked, made, hmade, heffects, rfl⟩ := exists_of_create_eq_ok hlayout hcreate
      obtain ⟨pool', counter, hpools, hpool', hlinked⟩ := hmade.linkImage
      have hstate := state?_addEffect made (.ofLinked linked)
      rw [heffects] at hstate
      have henters := enters_linkImage hmade.layout (hmade.pools ▸ howned.distinct) hpool' hlinked
      rcases henters.new q name entry hentry with hold | ⟨-, hq, t, p, hfirst, hp, -, hblock⟩
      · rw [entryOf?, hmade.pools] at hold
        exact absurd (hold.symm.trans hnone) fun h => by cases h
      obtain ⟨l, hlink, rfl, rfl⟩ := exists_of_linkImage_eq_ok hlinked
      have hlaid := (Link.attaches_link hlink).skeleton.laid (Link.laid_start image)
      have hr : p.root < l.tree.initial.size :=
        hlaid.root_lt t p.root (Tree.root?_of_node? hp)
      refine ⟨image, skip, _, t, p, _, by rw [hpools q hq], hstate, hq, hfirst, hp,
        Array.getElem?_eq_getElem hr, ?_⟩
      rw [hblock]
      show ((Host.bindPool _ _ _ _).2.memory.block _).toContents = _
      rw [memory_bindPool]
      exact toContents_block_withRoots base l (Array.getElem?_eq_getElem hr)
  | clone i =>
    cases hs : host.state? i with
    | none => exact absurd (by rw [perform, hs]) hsame
    | some s =>
      obtain ⟨host', s', hclones⟩ := exists_clones hlayout howned hs
      rw [hclones.perform hs] at hsame
      exact absurd (hclones.entryOf?_eq q name) hsame

/-- What is stored at a place of an entry is stored in its block. -/
lemma storesAt_iff {i : Nat} {s : EffectState} (hlayout : host.Layout use)
    (howned : host.Owned owner) (hs : host.state? i = some s) {c : PoolPlace} {entry : PoolEntry}
    (hentry : host.entryOf? c.pool c.name = some entry) {w : Write} {v : c.storage.Value} :
    host.StoresAt s.linked w c v ↔
      s.linked.stored? w entry.block c.storage c.place = some v := by
  have hi := (state?_eq_some.1 hs).1
  have hfits := hlayout.effects i s.effect hi
  constructor
  · rintro ⟨hbound, p, hp, hplace, hv⟩
    obtain ⟨entry', hentry', hblock⟩ := hbound.blockOf?_eq hfits
    obtain rfl := Option.some.inj (hentry.symm.trans hentry')
    exact (LinkedEffect.stored?_eq_some hp).2 ⟨hblock, hplace, hv⟩
  · intro hstored
    obtain ⟨p, hp, -⟩ := Option.bind_eq_some_iff.1 hstored
    obtain ⟨hblock, hplace, hv⟩ := (LinkedEffect.stored?_eq_some hp).1 hstored
    obtain ⟨u, hu, hroot⟩ := s.linked.blockOf?_eq_some.1 hblock
    obtain rfl : u = p := Option.some.inj (hu.symm.trans hp)
    exact ⟨(howned.shares_of_entry hi hentry hroot).bound hfits hp rfl, u, hp, hplace, hv⟩

/-- What a place of an entry holds after a call is what the call gave it, or what it held if the
call gave it nothing. -/
lemma gives_or_eq_of_call (hlayout : host.Layout use) (howned : host.Owned owner) {i : Nat}
    {s : EffectState} (hs : host.state? i = some s) (op : Operation) {c : PoolPlace}
    {entry : PoolEntry} (hentry : host.entryOf? c.pool c.name = some entry) {v : c.storage.Value}
    (hv : (host.perform (.call i op)).memory.valueAt entry.block c.storage c.place = some v) :
    host.Gives c (.call i op) v ∨ (∀ v', ¬host.Gives c (.call i op) v') ∧
      host.memory.valueAt entry.block c.storage c.place = some v := by
  obtain ⟨pool, hpool, hfind⟩ := entryOf?_eq_some.1 hentry
  have huse := ((hlayout.pools pool (Array.mem_of_getElem? hpool)).2 entry
    (Pool.mem_of_find? hfind)).2
  have hlaid : host.LaidOut := ⟨use, hlayout⟩
  have hcomputed : ¬s.linked.Computed entry.block := by
    intro hcomputed
    obtain ⟨r, hvalue⟩ := (hlayout.effects i s.effect
      (state?_eq_some.1 hs).1).value_of_computed hcomputed
    rw [huse] at hvalue
    cases hvalue
  rw [(perform_call hs op).1, EffectState.valueAt_perform (hlaid.proper hs) (hlaid.counter_lt hs)
    host.device op hcomputed, (state?_eq_some.1 hs).2] at hv
  obtain ⟨held, hheld, rfl⟩ := Option.map_eq_some_iff.1 hv
  rcases s.linked.afterWrites_cases (s.writes op) entry.block c.storage c.place held with
    ⟨before, w, after, v', hwrites, hw, hafter, hlast⟩ | ⟨hnone, hsame⟩
  · refine .inl (.write hs hwrites ?_ fun w' hw' v'' hstores => ?_)
    · rw [hlast]
      exact (storesAt_iff hlayout howned hs hentry).2 hw
    · have hstored := (storesAt_iff hlayout howned hs hentry).1 hstores
      rw [hafter w' hw'] at hstored
      cases hstored
  · refine .inr ⟨fun v' hgives => ?_, by rw [hsame]; exact hheld⟩
    cases hgives with
    | @write _ _ s' before after w _ hs' hwrites hstores =>
      obtain rfl := Option.some.inj (hs.symm.trans hs')
      have hstored := (storesAt_iff hlayout howned hs hentry).1 hstores
      rw [hnone w (by simp [hwrites])] at hstored
      cases hstored

/-- What a place of an entry that was there holds after an operation is what it was given, or what
it held if it was given nothing. -/
lemma gives_or_eq (hlayout : host.Layout use) (howned : host.Owned owner) (op : HostOperation)
    {c : PoolPlace} {entry : PoolEntry} (hentry : host.entryOf? c.pool c.name = some entry)
    {v : c.storage.Value}
    (hv : (host.perform op).memory.valueAt entry.block c.storage c.place = some v) :
    host.Gives c op v ∨ (∀ v', ¬host.Gives c op v') ∧
      host.memory.valueAt entry.block c.storage c.place = some v := by
  by_cases hcall : ∃ i op' s, op = .call i op' ∧ host.state? i = some s
  · obtain ⟨i, op', s, rfl, hs⟩ := hcall
    exact gives_or_eq_of_call hlayout howned hs op' hentry hv
  · -- Only calls give something to an entry that is there, and nothing else changes its block.
    refine .inr ⟨fun v' hgives => ?_, ?_⟩
    · cases hgives with
      | first hnone =>
        rw [hnone] at hentry
        cases hentry
      | write hs => exact hcall ⟨_, _, _, rfl, hs⟩
    · by_contra hne
      rw [← hv, eq_comm] at hne
      obtain ⟨pool, hpool, hfind⟩ := entryOf?_eq_some.1 hentry
      have hlt := ((hlayout.pools pool (Array.mem_of_getElem? hpool)).2 entry
        (Pool.mem_of_find? hfind)).1
      obtain ⟨i, op', s, hop, hs, -⟩ := changes_perform hlayout op hlt hne
      exact hcall ⟨i, op', s, hop, hs⟩

/-- Every place of an entry holds what it was last given. -/
theorem latest_run (ops : List HostOperation) {c : PoolPlace} {entry : PoolEntry}
    (hentry : (run {} ops).entryOf? c.pool c.name = some entry) {v : c.storage.Value}
    (hv : (run {} ops).memory.valueAt entry.block c.storage c.place = some v) :
    Latest c v ops := by
  induction ops using List.reverseRecOn generalizing entry with
  | nil => simp [run, entryOf?] at hentry
  | append_singleton ops op ih =>
    have hreachable : (run {} ops).Reachable := ⟨ops, rfl⟩
    obtain ⟨use, hlayout⟩ := hreachable.laidOut
    obtain ⟨owner, howned⟩ := hreachable.owned
    rw [run_snoc] at hentry hv
    cases hold : (run {} ops).entryOf? c.pool c.name with
    | none =>
      obtain ⟨image, skip, s, t, p, contents, rfl, hs, hpool, hfirst, hp, hcontents, hblock⟩ :=
        entryOf?_perform hlayout howned hold hentry
      rw [Memory.valueAt, hblock] at hv
      exact .of_gives (.first hold hs hpool hfirst hp hcontents hv)
    | some old =>
      obtain ⟨use', hsteps⟩ := steps_perform hlayout op
      obtain rfl : old = entry := Option.some.inj ((hsteps.grows.entryOf? hold).symm.trans hentry)
      rcases gives_or_eq hlayout howned op hold hv with hgives | ⟨hnone, hheld⟩
      · exact .of_gives hgives
      · exact (ih hold hheld).snoc hnone

/-- How effects share values after operations were carried out. -/
structure Sharing (ops : List HostOperation) : Prop where
  /-- A parameter that is bound to an entry has the storage of the entry. -/
  bound : ∀ i s, (run {} ops).state? i = some s → ∀ h q name,
    (run {} ops).Bound s.linked h q name → ∃ entry,
      (run {} ops).entryOf? q name = some entry ∧ s.linked.blockOf? h = some entry.block
  /-- A parameter that is bound to an entry reads at each of its places what this was last given. -/
  reads : ∀ i s, (run {} ops).state? i = some s → ∀ h q name,
    (run {} ops).Bound s.linked h q name → ∀ p, s.tree.node? h = some p →
    ∀ (k : Storage) (n : Nat) (v : k.Value), (s.values k h)[n]? = some v →
      Latest ⟨q, name, k, (k.slice p).start + n⟩ v ops
  /-- What a place was last given is one value. -/
  unique : ∀ (c : PoolPlace) v v', Latest c v ops → Latest c v' ops → v = v'
  /-- If the images were read, all parameters have a value at each of their places. -/
  whole : (∀ op ∈ ops, op.FromStored) → ∀ i s, (run {} ops).state? i = some s →
    ∀ h p, s.tree.node? h = some p → ∀ k : Storage,
      (s.values k h).length = (k.slice p).length
  /-- What parameters of images that were read hold at first, and are reset to, are the words of the
  image and the objects that it refers to. -/
  initial : (∀ op ∈ ops, op.FromStored) → ∀ i s, (run {} ops).state? i = some s →
    ∃ object? : UInt32 → Option EffectObject, ∀ h p, s.tree.node? h = some p →
      (∃ place, s.linked.image.Contains p.node place) ∧
      ∃ c, s.tree.initial[p.root]? = some c ∧ p.words.read c.words = p.node.data .words ∧
        p.objects.read c.objects = (p.node.data .objects).map object?
  /-- Parameters that have the same storage are of one root of one effect, or bound to one entry. -/
  apart : ∀ i j s s', (run {} ops).state? i = some s → (run {} ops).state? j = some s' →
    ∀ h h' b, s.linked.blockOf? h = some b → s'.linked.blockOf? h' = some b →
      i = j ∧ s.tree.root? h = s'.tree.root? h' ∨
      ∃ q name, (run {} ops).Bound s.linked h q name ∧ (run {} ops).Bound s'.linked h' q name
  /-- Private parameters are not bound. -/
  unbound : ∀ i s, (run {} ops).state? i = some s → ∀ h, (run {} ops).Private s.linked h →
    ∀ q name, ¬(run {} ops).Bound s.linked h q name
  /-- The value of a parameter changes only if a parameter is written that is seen in it, or if it
  is the value of a state that a pass of the same effect computes. -/
  changes : ∀ op j s s', (run {} ops).state? j = some s →
    ((run {} ops).perform op).state? j = some s' → ∀ (k : Storage) h',
    s'.values k h' ≠ s.values k h' → ∃ i op' sᵢ, op = .call i op' ∧
      (run {} ops).state? i = some sᵢ ∧
      ((∃ h ∈ sᵢ.written op', (run {} ops).Seen k i sᵢ.linked h j s.linked h') ∨
        i = j ∧ op'.computes = true ∧
          ∃ id, s.linked.blockOf? h' = some id ∧ sᵢ.linked.Computed id)

/-- Whatever was done, effects share exactly what is bound to entries of pools: there the last write
wins, and everything else keeps to itself. -/
theorem sharing_run (ops : List HostOperation) : Sharing ops := by
  have hreachable : (run {} ops).Reachable := ⟨ops, rfl⟩
  obtain ⟨use, hlayout⟩ := hreachable.laidOut
  obtain ⟨owner, howned⟩ := hreachable.owned
  have hfits : ∀ {i s}, (run {} ops).state? i = some s → s.effect.Fits (run {} ops) use i :=
    fun hs => hlayout.effects _ _ (state?_eq_some.1 hs).1
  exact {
    bound := fun i s hs h q name hbound => hbound.blockOf?_eq (hfits hs)
    reads := fun i s hs h q name hbound p hp k n v hv => by
      obtain ⟨entry, hentry, hblock⟩ := hbound.blockOf?_eq (hfits hs)
      rw [EffectState.values, s.linked.values_eq_read hp hblock, Slice.getElem?_read,
        (state?_eq_some.1 hs).2] at hv
      split at hv
      · exact latest_run ops (c := ⟨q, name, k, _⟩) hentry hv
      · cases hv
    unique := fun c v v' h h' => h.unique h'
    whole := fun hops i s hs h p hp k => by
      obtain ⟨l, hgrounded⟩ := exists_grounded hops hs
      obtain ⟨id, c, hid, -, -, hstop⟩ := hgrounded.slices h p hp
      rw [EffectState.values, s.linked.values_eq_read hp hid]
      exact Slice.length_read_of_stop_le (k.size_values _ ▸ (hstop k).1)
    initial := fun hops i s hs => by
      obtain ⟨l, hgrounded⟩ := exists_grounded hops hs
      refine ⟨l.objects.get?, fun h p hp => ?_⟩
      have hmirrors := hgrounded.mirrors hp
      rw [hgrounded.tree]
      exact ⟨hmirrors.value, hmirrors.contents⟩
    apart := fun i j s s' hs hs' h h' b hb hb' => by
      obtain ⟨p, hp, -⟩ := s.linked.blockOf?_eq_some.1 hb
      obtain ⟨p', hp', -⟩ := s'.linked.blockOf?_eq_some.1 hb'
      refine (howned.eq_or_bound (state?_eq_some.1 hs).1 (state?_eq_some.1 hs').1 (hfits hs)
        (hfits hs') hp hp' hb hb').imp_left fun hshared => ⟨hshared.1, ?_⟩
      rw [Tree.root?_of_node? hp, Tree.root?_of_node? hp', hshared.2]
    unbound := fun i s hs h hprivate => hprivate.not_bound (hfits hs)
    changes := fun op j s s' hs hs' k h' => changes_values hlayout howned hs hs' }

/-- Of the lamp that two effects and a clone share, one number was last given back from a block, and
the other one set through the clone. -/
theorem sharing_run_shareLamp : ∃ im ops, Image.decode (Image.encode lamp).toArray = .ok im ∧
    ops = shareLamp im ++ [.call 2 (.set ⟨4⟩ (.float ⟨8⟩))] ∧ Sharing ops ∧
    Latest ⟨0, "lamp", .words, 0⟩ (5 : UInt32) ops ∧
    Latest ⟨0, "lamp", .words, 1⟩ (8 : UInt32) ops := by
  obtain ⟨im, hdecode, s, hs, hwords, htop, hshares, hpool, p, hp, entry, hentry, hshapes,
      hstart⟩ : ∃ im, (Image.decode (Image.encode lamp).toArray).toOption = some im ∧
        ∃ s ∈ (run {} (shareLamp im ++ [.call 2 (.set ⟨4⟩ (.float ⟨8⟩))])).state? 0,
          s.words ⟨0⟩ = [5, 8] ∧ s.tree.top = [⟨0⟩] ∧ s.tree.shares "lamp" ⟨0⟩ = true ∧
          s.linked.pool = some 0 ∧ ∃ p ∈ s.tree.node? ⟨0⟩,
            ∃ entry ∈ (run {} (shareLamp im ++ [.call 2 (.set ⟨4⟩ (.float ⟨8⟩))])).entryOf? 0
              "lamp", entry.shapes = p.node.shapes ∧ p.words.start = 0 := by
    decide +kernel
  refine ⟨im, _, Image.eq_ok_of_toOption_eq_some hdecode, rfl, ?_⟩
  generalize shareLamp im ++ [.call 2 (.set ⟨4⟩ (.float ⟨8⟩))] = ops at hs hentry
  have hsharing := sharing_run ops
  have hbound : (run {} ops).Bound s.linked ⟨0⟩ 0 "lamp" :=
    ⟨⟨0⟩, ⟨by rw [htop]; exact List.mem_singleton_self _, hshares, hpool, p, entry, hp, hentry,
      hshapes⟩, .refl⟩
  have hread : ∀ (n : Nat) (v : UInt32), (s.words ⟨0⟩)[n]? = some v →
      Latest ⟨0, "lamp", .words, n⟩ v ops := by
    intro n v hv
    have hlatest := hsharing.reads 0 s hs ⟨0⟩ 0 "lamp" hbound p hp .words n v hv
    rwa [show (Storage.words.slice p).start + n = n by
      rw [show (Storage.words.slice p).start = 0 from hstart, Nat.zero_add]] at hlatest
  exact ⟨hsharing, hread 0 5 (by rw [hwords]; rfl), hread 1 8 (by rw [hwords]; rfl)⟩

end Host

end ShaderEffect
