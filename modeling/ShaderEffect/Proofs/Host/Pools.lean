import ShaderEffect.Effect.Pool
import ShaderEffect.Proofs.Link.Laid

/-!
# Binding to pools

A pool only gains entries. `Pool.Binding` says what it is to bind one parameter, and the rest comes
from that. To bind parameters leaves each root with its own block or with the block of the entry of
its name, and after that every shared parameter agrees with the entry of its name: it has the
entry's block if it has the entry's shape (`Pool.Agrees`). What a pool gains is the block of the
first shared parameter of a name it had no entry for (`Pool.Provides`).
-/

namespace ShaderEffect

/-- A handle is that of a shared parameter with a name. -/
def Tree.shares (t : Tree) (name : String) (h : Handle) : Bool :=
  match t.node? h with
  | some p => p.flags &&& sharedFlag != 0 && p.decl.name == some name
  | none => false

lemma Tree.shares_eq_true {t : Tree} {name : String} {h : Handle} :
    t.shares name h = true ↔
      ∃ p, t.node? h = some p ∧ p.flags &&& sharedFlag ≠ 0 ∧ p.decl.name = some name := by
  rw [shares]
  split
  · rename_i p hp
    simp [hp]
  · rename_i hp
    simp [hp]

namespace Pool

/-- From one pool to a later one. -/
structure Grows (pool pool' : Pool) : Prop where
  counter : pool'.counter = pool.counter
  find? : ∀ name entry, pool.find? name = some entry → pool'.find? name = some entry

namespace Grows

lemma refl (pool : Pool) : Grows pool pool := ⟨rfl, fun _ _ h => h⟩

lemma trans {pool pool' pool'' : Pool} (h : Grows pool pool') (h' : Grows pool' pool'') :
    Grows pool pool'' :=
  ⟨h'.counter.trans h.counter, fun _ _ hentry => h'.find? _ _ (h.find? _ _ hentry)⟩

end Grows

/-- A shared parameter has the block of the entry of its name, unless it has another shape. -/
def Agrees (pool : Pool) (tree : Tree) (roots : Array Nat) (h : Handle) : Prop :=
  ∀ p name, tree.node? h = some p → p.flags &&& sharedFlag ≠ 0 → p.decl.name = some name →
    ∃ entry, pool.find? name = some entry ∧
      (entry.shapes = p.node.shapes → roots[p.root]? = some entry.block)

lemma Agrees.grows {pool pool' : Pool} {tree : Tree} {roots : Array Nat} {h : Handle}
    (hagrees : pool.Agrees tree roots h) (hgrows : Grows pool pool') :
    pool'.Agrees tree roots h := fun p name hp hflags hname => by
  obtain ⟨entry, hentry, hroot⟩ := hagrees p name hp hflags hname
  exact ⟨entry, hgrows.find? _ _ hentry, hroot⟩

/-- What binding does to pools, to roots, and to blocks that are known to be good for the shapes
they have the values of. -/
structure Binds (tree : Tree) (good : List NodeShape → Nat → Prop) (hs : List Handle) (pool : Pool)
    (roots : Array Nat) (pool' : Pool) (roots' : Array Nat) : Prop where
  grows : Grows pool pool'
  size_roots : roots'.size = roots.size
  good : ∀ entry ∈ pool'.entries, good entry.shapes entry.block
  agrees : ∀ h ∈ hs, pool'.Agrees tree roots' h
  /-- A root that changed has the block of the entry of its parameter's name. -/
  roots : ∀ r, roots'[r]? = roots[r]? ∨ ∃ h ∈ hs, ∃ p name entry, tree.node? h = some p ∧
    p.root = r ∧ p.flags &&& sharedFlag ≠ 0 ∧ p.decl.name = some name ∧
    pool'.find? name = some entry ∧ entry.shapes = p.node.shapes ∧ roots'[r]? = some entry.block

variable {tree : Tree} {good : List NodeShape → Nat → Prop} {pool : Pool} {roots : Array Nat}

lemma mem_of_find? {name : String} {entry : PoolEntry} (h : pool.find? name = some entry) :
    entry ∈ pool.entries :=
  List.mem_of_find?_eq_some h

namespace Binds

lemma refl (hpool : ∀ entry ∈ pool.entries, good entry.shapes entry.block) :
    Binds tree good [] pool roots pool roots :=
  ⟨.refl pool, rfl, hpool, fun _ h => (by cases h), fun _ => .inl rfl⟩

/-- A root that is bound is bound to what is good for its shapes. -/
lemma good_of_getElem? {hs : List Handle} {pool' : Pool} {roots' : Array Nat}
    (hbinds : Binds tree good hs pool roots pool' roots') {h : Handle} {p : Parameter}
    (hp : tree.node? h = some p) (hinj : ∀ i ∈ hs, tree.root? i = tree.root? h → i = h)
    (hroot : ∀ id, roots[p.root]? = some id → good p.node.shapes id) {id : Nat}
    (hid : roots'[p.root]? = some id) : good p.node.shapes id := by
  rcases hbinds.roots p.root with
    hsame | ⟨i, hi, q, name, entry, hq, hr, -, -, hentry, hshapes, hblock⟩
  · exact hroot id (hsame ▸ hid)
  · obtain rfl : entry.block = id := Option.some.inj (hblock.symm.trans hid)
    obtain rfl : i = h := hinj i hi (by rw [Tree.root?_of_node? hp, Tree.root?_of_node? hq, hr])
    obtain rfl : q = p := Option.some.inj (hq.symm.trans hp)
    exact hshapes ▸ hbinds.good entry (mem_of_find? hentry)

lemma trans {hs hs' : List Handle} {pool' pool'' : Pool} {roots' roots'' : Array Nat}
    (h : Binds tree good hs pool roots pool' roots')
    (h' : Binds tree good hs' pool' roots' pool'' roots'')
    (hinj : ∀ i ∈ hs, ∀ j ∈ hs', tree.root? i = tree.root? j → i = j) :
    Binds tree good (hs ++ hs') pool roots pool'' roots'' where
  grows := h.grows.trans h'.grows
  size_roots := h'.size_roots.trans h.size_roots
  good := h'.good
  agrees i hi := by
    rcases List.mem_append.1 hi with hi | hi
    · intro p name hp hflags hname
      obtain ⟨entry, hentry, hroot⟩ := h.agrees i hi p name hp hflags hname
      rcases h'.roots p.root with hsame | ⟨j, hj, q, -, -, hq, hqroot, -⟩
      · exact ⟨entry, h'.grows.find? _ _ hentry, fun hshapes => hsame ▸ hroot hshapes⟩
      · -- The root was bound again, so it is that of the same parameter.
        obtain rfl : i = j := hinj i hi j hj
          (by rw [Tree.root?_of_node? hp, Tree.root?_of_node? hq, hqroot])
        exact h'.agrees i hj p name hp hflags hname
    · exact h'.agrees i hi
  roots r := by
    rcases h'.roots r with hsame | ⟨i, hi, hrest⟩
    · rcases h.roots r with hsame' | ⟨i, hi, p, name, entry, hp, hr, hflags, hname, hentry, hrest⟩
      · exact .inl (hsame.trans hsame')
      · refine .inr ⟨i, List.mem_append_left _ hi, p, name, entry, hp, hr, hflags, hname,
          h'.grows.find? _ _ hentry, hrest.1, hsame.trans hrest.2⟩
    · exact .inr ⟨i, List.mem_append_right _ hi, hrest⟩

end Binds

/-! ### One parameter -/

/-- The pool with one more entry. -/
def add (pool : Pool) (entry : PoolEntry) : Pool :=
  { pool with entries := pool.entries ++ [entry] }

lemma find?_add {entry : PoolEntry} (hnone : pool.find? entry.name = none) (name : String) :
    (pool.add entry).find? name = if entry.name = name then some entry else pool.find? name := by
  rw [find?, add, List.find?_append]
  split
  case isTrue hname =>
    subst hname
    rw [show pool.entries.find? (·.name == entry.name) = none from hnone]
    simp
  case isFalse hname =>
    rw [List.find?_cons_of_neg (by simpa using hname), List.find?_nil, Option.or_none]
    rfl

lemma grows_add {entry : PoolEntry} (hnone : pool.find? entry.name = none) :
    Grows pool (pool.add entry) where
  counter := rfl
  find? name old hold := by
    rw [find?_add hnone, if_neg fun hname => ?_]
    · exact hold
    · rw [← hname, hnone] at hold
      cases hold

/-- What it is to bind one parameter. -/
inductive Binding (tree : Tree) (h : Handle) (pool : Pool) (roots : Array Nat) :
    Pool → Array Nat → Prop
  /-- It is not shared, or has no name or no root. -/
  | nothing : (∀ p name, tree.node? h = some p → p.flags &&& sharedFlag ≠ 0 →
      p.decl.name = some name → roots.size ≤ p.root) → Binding tree h pool roots pool roots
  /-- It keeps its own block beside an entry of another shape. -/
  | keep {p : Parameter} {name : String} {entry : PoolEntry} : tree.node? h = some p →
      p.decl.name = some name → pool.find? name = some entry → entry.shapes ≠ p.node.shapes →
      Binding tree h pool roots pool roots
  /-- It adopts the block of an entry of its shape. -/
  | adopt {p : Parameter} {name : String} {entry : PoolEntry} : tree.node? h = some p →
      p.flags &&& sharedFlag ≠ 0 → p.decl.name = some name → pool.find? name = some entry →
      entry.shapes = p.node.shapes →
      Binding tree h pool roots pool (roots.setIfInBounds p.root entry.block)
  /-- It provides the block of a name that has no entry. -/
  | provide {p : Parameter} {name : String} {block : Nat} : tree.node? h = some p →
      p.flags &&& sharedFlag ≠ 0 → p.decl.name = some name → pool.find? name = none →
      roots[p.root]? = some block →
      Binding tree h pool roots (pool.add ⟨name, p.node.shapes, block⟩) roots

lemma bind_cons (h : Handle) (rest : List Handle) : bind tree (h :: rest) pool roots =
    bind tree rest (bind tree [h] pool roots).1 (bind tree [h] pool roots).2 := rfl

lemma binding_bind (h : Handle) :
    Binding tree h pool roots (bind tree [h] pool roots).1 (bind tree [h] pool roots).2 := by
  simp only [bind]
  cases hp : tree.node? h with
  | none =>
    refine .nothing fun p _ hp' => ?_
    rw [hp] at hp'
    cases hp'
  | some p =>
    by_cases hflags : p.flags &&& sharedFlag = 0
    · simp only [hflags, bne_self_eq_false, Bool.false_eq_true, if_false]
      refine .nothing fun q _ hq hshared => ?_
      obtain rfl : p = q := Option.some.inj (hp.symm.trans hq)
      exact absurd hflags hshared
    · have hbne : (p.flags &&& sharedFlag != 0) = true := by simpa using hflags
      simp only [hbne, if_true, bindParameter]
      split
      case h_1 name block hname hblock =>
        split
        case h_1 entry hentry =>
          split
          case isTrue hshapes => exact .adopt hp hflags hname hentry hshapes
          case isFalse hshapes => exact .keep hp hname hentry hshapes
        case h_2 hnone => exact .provide hp hflags hname hnone hblock
      case h_2 hnone =>
        refine .nothing fun q name hq _ hname => Nat.le_of_not_lt fun hlt => ?_
        obtain rfl : p = q := Option.some.inj (hp.symm.trans hq)
        exact hnone name _ hname (Array.getElem?_eq_getElem hlt)

lemma Agrees.of_entry {h : Handle} {p : Parameter} {name : String} {entry : PoolEntry}
    (hp : tree.node? h = some p) (hname : p.decl.name = some name)
    (hentry : pool.find? name = some entry)
    (hroot : entry.shapes = p.node.shapes → roots[p.root]? = some entry.block) :
    pool.Agrees tree roots h := fun q name' hq _ hname' => by
  obtain rfl : p = q := Option.some.inj (hp.symm.trans hq)
  obtain rfl : name = name' := Option.some.inj (hname.symm.trans hname')
  exact ⟨entry, hentry, hroot⟩

namespace Binding

variable {h : Handle} {pool' : Pool} {roots' : Array Nat}

lemma binds (hbinding : Binding tree h pool roots pool' roots')
    (hlt : ∀ p, tree.node? h = some p → p.root < roots.size)
    (hpool : ∀ entry ∈ pool.entries, good entry.shapes entry.block)
    (hroots : ∀ p, tree.node? h = some p → ∀ id, roots[p.root]? = some id →
      good p.node.shapes id) : Binds tree good [h] pool roots pool' roots' := by
  cases hbinding with
  | nothing hout =>
    refine ⟨.refl pool, rfl, hpool, List.forall_mem_singleton.2 ?_, fun _ => .inl rfl⟩
    exact fun p name hp hflags hname =>
      absurd (hlt p hp) (Nat.not_lt.2 (hout p name hp hflags hname))
  | keep hp hname hentry hshapes =>
    exact ⟨.refl pool, rfl, hpool,
      List.forall_mem_singleton.2 (.of_entry hp hname hentry fun heq => absurd heq hshapes),
      fun _ => .inl rfl⟩
  | @adopt p name entry hp hflags hname hentry hshapes =>
    have hset : (roots.setIfInBounds p.root entry.block)[p.root]? = some entry.block :=
      Array.getElem?_setIfInBounds_self_of_lt (hlt p hp)
    refine ⟨.refl pool, Array.size_setIfInBounds .., hpool,
      List.forall_mem_singleton.2 (.of_entry hp hname hentry fun _ => hset), fun r => ?_⟩
    by_cases hr : p.root = r
    · exact .inr ⟨h, List.mem_singleton.2 rfl, p, name, entry, hp, hr, hflags, hname, hentry,
        hshapes, hr ▸ hset⟩
    · exact .inl (Array.getElem?_setIfInBounds_ne hr)
  | @provide p name block hp hflags hname hnone hblock =>
    have hadded : (pool.add ⟨name, p.node.shapes, block⟩).find? name =
        some ⟨name, p.node.shapes, block⟩ := by rw [find?_add hnone, if_pos rfl]
    refine ⟨grows_add hnone, rfl, fun entry hentry => ?_,
      List.forall_mem_singleton.2 (.of_entry hp hname hadded fun _ => hblock), fun _ => .inl rfl⟩
    rcases List.mem_append.1 hentry with hentry | hentry
    · exact hpool entry hentry
    · obtain rfl := List.mem_singleton.1 hentry
      exact hroots p hp block hblock

/-- A pool that has an entry for the name gains nothing. -/
lemma eq_of_entry (hbinding : Binding tree h pool roots pool' roots')
    (hentry : ∀ name, tree.shares name h = true → ∃ entry, pool.find? name = some entry) :
    pool' = pool := by
  cases hbinding with
  | nothing | keep | adopt => rfl
  | @provide p name block hp hflags hname hnone =>
    obtain ⟨entry, hentry⟩ := hentry name (Tree.shares_eq_true.2 ⟨p, hp, hflags, hname⟩)
    rw [hnone] at hentry
    cases hentry

end Binding

/-! ### All parameters -/

/-- All shared ones of some parameters are bound. -/
theorem binds_bind {hs : List Handle}
    (hinj : ∀ i ∈ hs, ∀ j ∈ hs, tree.root? i = tree.root? j → i = j)
    (hlt : ∀ h ∈ hs, ∀ p, tree.node? h = some p → p.root < roots.size)
    (hpool : ∀ entry ∈ pool.entries, good entry.shapes entry.block)
    (hroots : ∀ h ∈ hs, ∀ p, tree.node? h = some p → ∀ id, roots[p.root]? = some id →
      good p.node.shapes id) :
    Binds tree good hs pool roots (bind tree hs pool roots).1 (bind tree hs pool roots).2 := by
  induction hs generalizing pool roots with
  | nil => exact .refl hpool
  | cons h rest ih =>
    have hfirst : Binds tree good [h] pool roots (bind tree [h] pool roots).1
        (bind tree [h] pool roots).2 :=
      (binding_bind h).binds (hlt h List.mem_cons_self) hpool (hroots h List.mem_cons_self)
    refine hfirst.trans (ih (fun i hi j hj => hinj i (List.mem_cons_of_mem _ hi) j
      (List.mem_cons_of_mem _ hj)) (fun i hi p hp => ?_) hfirst.good fun i hi p hp id hid => ?_)
      fun i hi j hj => ?_
    · rw [hfirst.size_roots]
      exact hlt i (List.mem_cons_of_mem _ hi) p hp
    · refine hfirst.good_of_getElem? hp (fun j hj => ?_)
        (hroots i (List.mem_cons_of_mem _ hi) p hp) hid
      obtain rfl := List.mem_singleton.1 hj
      exact hinj j List.mem_cons_self i (List.mem_cons_of_mem _ hi)
    · obtain rfl := List.mem_singleton.1 hi
      exact hinj i List.mem_cons_self j (List.mem_cons_of_mem _ hj)

/-! ### What pools gain -/

/-- All entries have different names. -/
def Distinct (pool : Pool) : Prop := ∀ entry ∈ pool.entries, pool.find? entry.name = some entry

/-- From one pool to a later one, entries were added for names that had none, each by the first
shared parameter with the name. -/
structure Provides (tree : Tree) (hs : List Handle) (pool : Pool) (roots : Array Nat)
    (pool' : Pool) : Prop where
  distinct : pool.Distinct → pool'.Distinct
  entries : ∀ entry ∈ pool'.entries, entry ∈ pool.entries ∨ pool.find? entry.name = none ∧
    ∃ h p, hs.find? (tree.shares entry.name) = some h ∧ tree.node? h = some p ∧
      entry.shapes = p.node.shapes ∧ roots[p.root]? = some entry.block

lemma Provides.refl (tree : Tree) (hs : List Handle) (pool : Pool) (roots : Array Nat) :
    Provides tree hs pool roots pool := ⟨id, fun _ h => .inl h⟩

lemma Distinct.add {entry : PoolEntry} (hdistinct : pool.Distinct)
    (hnone : pool.find? entry.name = none) : (pool.add entry).Distinct := fun other hother => by
  rcases List.mem_append.1 hother with hother | hother
  · exact (grows_add hnone).find? _ _ (hdistinct other hother)
  · obtain rfl := List.mem_singleton.1 hother
    rw [find?_add hnone, if_pos rfl]

lemma Binding.provides {h : Handle} {pool' : Pool} {roots' : Array Nat}
    (hbinding : Binding tree h pool roots pool' roots') : Provides tree [h] pool roots pool' := by
  cases hbinding with
  | nothing | keep | adopt => exact .refl ..
  | @provide p name block hp hflags hname hnone hblock =>
    refine ⟨fun hdistinct => hdistinct.add hnone, fun entry hentry => ?_⟩
    rcases List.mem_append.1 hentry with hentry | hentry
    · exact .inl hentry
    · obtain rfl := List.mem_singleton.1 hentry
      refine .inr ⟨hnone, h, p, ?_, hp, rfl, hblock⟩
      rw [List.find?_cons_of_pos (Tree.shares_eq_true.2 ⟨p, hp, hflags, hname⟩)]

/-- After a parameter was bound, others are bound. -/
lemma Provides.cons {h : Handle} {rest : List Handle} {pool' pool'' : Pool} {roots' : Array Nat}
    (hstep : Provides tree [h] pool roots pool')
    (hbinds : Binds tree good [h] pool roots pool' roots')
    (hrest : Provides tree rest pool' roots' pool'')
    (hinj : ∀ i ∈ rest, tree.root? i = tree.root? h → i = h) :
    Provides tree (h :: rest) pool roots pool'' where
  distinct hdistinct := hrest.distinct (hstep.distinct hdistinct)
  entries entry hentry := by
    rcases hrest.entries entry hentry with hentry | ⟨hnone, i, p, hfind, hp, hshapes, hblock⟩
    · refine (hstep.entries entry hentry).imp_right ?_
      rintro ⟨hnone, i, p, hfind, hrest⟩
      obtain rfl : h = i := List.mem_singleton.1 (List.mem_of_find?_eq_some hfind) ▸ rfl
      refine ⟨hnone, h, p, ?_, hrest⟩
      rw [List.find?_cons_of_pos (List.find?_some hfind)]
    · have hnone' : pool.find? entry.name = none := by
        cases hfind' : pool.find? entry.name with
        | none => rfl
        | some old =>
          rw [hbinds.grows.find? _ _ hfind'] at hnone
          cases hnone
      -- The first parameter does not share the name, or there would be an entry for it.
      have hshares : tree.shares entry.name h = false := by
        by_contra hshares
        obtain ⟨q, hq, hflags, hname⟩ := Tree.shares_eq_true.1 (Bool.not_eq_false _ ▸ hshares)
        obtain ⟨old, hold, -⟩ := hbinds.agrees h (List.mem_singleton_self h) q _ hq hflags hname
        rw [hold] at hnone
        cases hnone
      refine .inr ⟨hnone', i, p, ?_, hp, hshapes, ?_⟩
      · rw [List.find?_cons_of_neg (by rw [hshares]; decide), hfind]
      · -- The root was not bound before, since roots are different.
        rcases hbinds.roots p.root with hsame | ⟨i', hi', q, -, -, hq, hroot, -⟩
        · exact hsame ▸ hblock
        · obtain rfl := List.mem_singleton.1 hi'
          obtain rfl : i = i' := hinj i (List.mem_of_find?_eq_some hfind)
            (by rw [Tree.root?_of_node? hp, Tree.root?_of_node? hq, hroot])
          rw [List.find?_some hfind] at hshares
          cases hshares

/-- What a pool gains when shared parameters are bound to it. -/
theorem provides_bind {hs : List Handle}
    (hinj : ∀ i ∈ hs, ∀ j ∈ hs, tree.root? i = tree.root? j → i = j)
    (hlt : ∀ h ∈ hs, ∀ p, tree.node? h = some p → p.root < roots.size) :
    Provides tree hs pool roots (bind tree hs pool roots).1 := by
  induction hs generalizing pool roots with
  | nil => exact .refl ..
  | cons h rest ih =>
    have hmem := @List.mem_cons_of_mem Handle h
    have hbinding : Binding tree h pool roots (bind tree [h] pool roots).1
        (bind tree [h] pool roots).2 := binding_bind h
    have hbinds : Binds tree (fun _ _ => True) [h] pool roots (bind tree [h] pool roots).1
        (bind tree [h] pool roots).2 :=
      hbinding.binds (hlt h List.mem_cons_self) (fun _ _ => trivial) fun _ _ _ _ => trivial
    rw [bind_cons]
    refine hbinding.provides.cons hbinds
      (ih (fun i hi j hj => hinj i (hmem hi) j (hmem hj)) fun i hi p hp => ?_)
      fun i hi => hinj i (hmem hi) h List.mem_cons_self
    rw [hbinds.size_roots]
    exact hlt i (hmem hi) p hp

/-- A pool that has entries for all names gains nothing. -/
lemma fst_bind_eq {hs : List Handle} (hentries : ∀ h ∈ hs, ∀ name, tree.shares name h = true →
    ∃ entry, pool.find? name = some entry) : (bind tree hs pool roots).1 = pool := by
  induction hs generalizing roots with
  | nil => rfl
  | cons h rest ih =>
    have hfirst : (bind tree [h] pool roots).1 = pool :=
      (binding_bind h).eq_of_entry (hentries h List.mem_cons_self)
    rw [bind_cons, hfirst]
    exact ih fun i hi => hentries i (List.mem_cons_of_mem _ hi)

end Pool

end ShaderEffect
