import ShaderEffect.Proofs.Link.Notes
import ShaderEffect.Proofs.Tree.Spelling

/-!
# Elements of arrays and names

The elements of an array stand in the same list as the members of a struct, and each has the name of
the array. So an array is no stranger to names: its own name leads to its first element, and all
other names lead nowhere. Whether a path led to an element is known from the step that it ended with
(`Tree.EndsAt`), since no node is a member of two, and no parameter that belongs to itself is a
member at all.
-/

namespace ShaderEffect

/-- The name that steps end with, after a name or none; there is none after an index. -/
def PathStep.lastName : Option String → List PathStep → Option String
  | start, [] => start
  | _, .member name :: rest => lastName (some name) rest
  | _, .index _ :: rest => lastName none rest

/-- The name that a path ends with; none if the last step is an index. -/
def Path.lastName (path : Path) : Option String :=
  PathStep.lastName (some (path.annotationName.getD path.name)) path.steps

namespace Tree

variable {t : Tree} {h h' a : Handle} {p : Parameter} {name : String} {last : Option String}

/-- An element of an array. -/
def IsElement (t : Tree) (h : Handle) : Prop :=
  ∃ a p, t.node? a = some p ∧ p.decl.elements ≠ 0 ∧ h ∈ p.members

/-- The first element of an array that has the given name. -/
def IsFirstOfArray (t : Tree) (name : String) (h : Handle) : Prop :=
  ∃ a p, t.node? a = some p ∧ p.decl.elements ≠ 0 ∧ p.decl.name = some name ∧
    p.members[0]? = some h

lemma IsFirst.mem {list : List Handle} (h' : t.IsFirst list name h) : h ∈ list := by
  obtain ⟨before, after, rfl, -⟩ := h'
  exact List.mem_append_right _ List.mem_cons_self

/-- A parameter is reached by an index, by the name of a member, or by the name of a parameter that
belongs to itself. -/
inductive EndsAt (t : Tree) : Option String → Handle → Prop
  | element {a h : Handle} {p : Parameter} : t.node? a = some p → p.decl.elements ≠ 0 →
      h ∈ p.members → EndsAt t none h
  | member {a h : Handle} {p : Parameter} {name : String} : t.node? a = some p →
      t.IsFirst p.members name h → EndsAt t (some name) h
  | head {h : Handle} {name : String} : t.IsHead h → EndsAt t (some name) h

/-- The last step decides how a parameter is reached. -/
lemma EndsAt.leads {steps : List PathStep} (hends : t.EndsAt last h) (hleads : t.Leads h steps h') :
    t.EndsAt (PathStep.lastName last steps) h' := by
  induction hleads generalizing last with
  | done => exact hends
  | member hp hfirst _ ih => exact ih (.member hp hfirst)
  | @index _ _ _ p i _ hp hi hk _ ih =>
    have helements : p.decl.elements ≠ 0 := fun hzero => by
      rw [hzero] at hi
      exact Nat.not_lt_zero i hi
    exact ih (.element hp helements (List.mem_of_getElem? hk))

end Tree

namespace Link

variable {im : Image} {l : Linking} {a h : Handle} {p : Parameter} {name : String}

/-- The elements of an array have its name. -/
lemma IsLinkingOf.elements_named (him : im.WellFormed) (hl : IsLinkingOf im l)
    (hp : l.tree.node? a = some p) (helements : p.decl.elements ≠ 0) (hh : h ∈ p.members)
    (name : String) : l.tree.IsNamed name h ↔ p.decl.name = some name := by
  obtain ⟨q, hq, hdecl⟩ :=
    ((hl.skeleton.made (made_start im)).members_of_array him hp helements).2 h hh
  have hname : q.decl.name = p.decl.name := by
    rw [hdecl]
    rfl
  rw [← hname]
  exact ⟨fun ⟨q', hq', hnamed⟩ => Option.some.inj (hq.symm.trans hq') ▸ hnamed, fun h => ⟨q, hq, h⟩⟩

/-- By name an array has its first element, if the name is its own, and nothing else. -/
lemma IsLinkingOf.named?_of_array (him : im.WellFormed) (hl : IsLinkingOf im l)
    (hp : l.tree.node? a = some p) (helements : p.decl.elements ≠ 0) (name : String) :
    l.tree.named? p.members name = if p.decl.name = some name then p.members[0]? else none := by
  have hnamed := fun h hh => hl.elements_named him hp helements (h := h) hh name
  split
  case isTrue hown =>
    cases hmembers : p.members with
    | nil => rfl
    | cons first rest =>
      rw [hmembers] at hnamed
      exact Tree.named?_eq_some_iff.2
        ⟨[], rest, rfl, (hnamed first List.mem_cons_self).2 hown, nofun⟩
  case isFalse hother =>
    rw [Tree.named?_eq_find?, List.find?_eq_none]
    exact fun h hh hnone => hother ((hnamed h hh).1 (Tree.isNamed_iff.1 hnone))

/-- A member is an element if what it is a member of is an array. -/
lemma IsLinkingOf.isElement_iff (him : im.WellFormed) (hl : IsLinkingOf im l)
    (hp : l.tree.node? a = some p) (hh : h ∈ p.members) :
    l.tree.IsElement h ↔ p.decl.elements ≠ 0 := by
  refine ⟨fun ⟨a', p', hp', helements, hh'⟩ => ?_, fun helements => ⟨a, p, hp, helements, hh⟩⟩
  obtain rfl := hl.parent_eq him hp hp' hh hh'
  exact Option.some.inj (hp'.symm.trans hp) ▸ helements

/-- An element is reached by an index, or as the first one by the name of its array. -/
lemma IsLinkingOf.isElement_iff_of_endsAt (him : im.WellFormed) (hl : IsLinkingOf im l)
    {last : Option String} (hends : l.tree.EndsAt last h) : l.tree.IsElement h ↔
      last = none ∨ ∃ name, last = some name ∧ l.tree.IsFirstOfArray name h := by
  cases hends with
  | element hp helements hh => exact ⟨fun _ => .inl rfl, fun _ => ⟨_, _, hp, helements, hh⟩⟩
  | @member a _ p name hp hfirst =>
    rw [hl.isElement_iff him hp hfirst.mem]
    constructor
    · intro helements
      have hnamed := hl.named?_of_array him hp helements name
      rw [Tree.named?_eq_some_iff.2 hfirst] at hnamed
      split at hnamed
      case isTrue hown => exact .inr ⟨name, rfl, a, p, hp, helements, hown, hnamed.symm⟩
      case isFalse => cases hnamed
    · rintro (hnone | ⟨name, -, a', p', hp', helements, -, hfirst'⟩)
      · cases hnone
      · exact (hl.isElement_iff him hp hfirst.mem).1
          ⟨a', p', hp', helements, List.mem_of_getElem? hfirst'⟩
  | head hhead =>
    constructor
    · rintro ⟨a, p, hp, -, hh⟩
      exact absurd hh (hl.head_not_mem him hhead hp)
    · rintro (hnone | ⟨name, -, a, p, hp, -, -, hfirst⟩)
      · cases hnone
      · exact absurd (List.mem_of_getElem? hfirst) (hl.head_not_mem him hhead hp)

/-- A path from the top ends at a parameter in one of these ways. -/
lemma IsLinkingOf.endsAt_of_top (hl : IsLinkingOf im l) {path : Path}
    (hreaches : l.tree.Reaches l.tree.top path h) : l.tree.EndsAt path.lastName h := by
  cases hreaches with
  | plain hfirst hleads => exact (Tree.EndsAt.head (hl.ownHeads.top _ hfirst.mem)).leads hleads
  | annotated _ hp hnote hleads =>
    exact (Tree.EndsAt.head (hl.ownHeads.notes _ _ hp _ hnote.mem)).leads hleads

/-- So does a path from the members of a parameter. -/
lemma endsAt_of_members {t : Tree} (hp : t.node? a = some p) {path : Path}
    (hplain : path.annotationName = none) (hreaches : t.Reaches p.members path h) :
    t.EndsAt path.lastName h := by
  cases hreaches with
  | plain hfirst hleads => exact (Tree.EndsAt.member hp hfirst).leads hleads
  | annotated => cases hplain

end Link

namespace Tree

variable {t : Tree}

/-- In every tree of an image that was read: a path leads to an element exactly if it ends with an
index, or with the name of an array whose first element is found. By its own name every array has
its first element, and by other names it has none. -/
theorem isElement_iff_of_find? {stored : Bytes} {im : Image}
    (hdecode : Image.decode stored = .ok im) (ht : Link.IsTreeOf im t) :
    (∀ base text h, text ≠ "" → t.find? base text = some h →
      ∃ path, Path.Spells text.toList path ∧ (t.IsElement h ↔
        path.lastName = none ∨ ∃ name, path.lastName = some name ∧ t.IsFirstOfArray name h)) ∧
    ∀ a p, t.node? a = some p → p.decl.elements ≠ 0 → ∀ name,
      t.named? p.members name = if p.decl.name = some name then p.members[0]? else none := by
  have him := Image.WellFormed.of_decode hdecode
  obtain ⟨l, hl, rfl⟩ := ht.exists_linking
  refine ⟨fun base text h htext hfind => ?_, fun a p hp helements name =>
    hl.named?_of_array him hp helements name⟩
  cases base with
  | none =>
    obtain ⟨-, path, hspells, hreaches⟩ := find?_none_eq_some_iff.1 hfind
    exact ⟨path, hspells, hl.isElement_iff_of_endsAt him (hl.endsAt_of_top hreaches)⟩
  | some base =>
    obtain ⟨p, path, hp, hspells, hplain, hreaches⟩ := (find?_some_eq_some_iff htext).1 hfind
    exact ⟨path, hspells, hl.isElement_iff_of_endsAt him
      (Link.endsAt_of_members hp hplain hreaches)⟩

/-- The second torch is an element, and found by an index. -/
theorem isElement_iff_of_find?_torches :
    ∃ im, Image.decode (Image.encode Image.torches).toArray = .ok im ∧
      ∃ path, Path.Spells "torches[1]".toList path ∧ path.lastName = none ∧
        (Link.start im).tree.find? none "torches[1]" = some ⟨6⟩ ∧
        (Link.start im).tree.IsElement ⟨6⟩ := by
  obtain ⟨im, him, hfind, path, hpath, hlast⟩ : ∃ im, Image.torches.image? = some im ∧
      (Link.start im).tree.find? none "torches[1]" = some ⟨6⟩ ∧
        ∃ path ∈ Path.parse? "torches[1]", path.lastName = none := by
    decide +kernel
  have hdecode := (Image.isWrittenAs_torches him).decode
  obtain ⟨path', hspells, hiff⟩ :=
    (isElement_iff_of_find? hdecode .laid).1 none "torches[1]" ⟨6⟩ (by decide +kernel) hfind
  obtain rfl := hspells.unique (Path.parse?_eq_some_iff.1 hpath)
  exact ⟨im, hdecode, path', hspells, hlast, hfind, hiff.2 (.inl hlast)⟩

/-- The first torch is an element, and found by a path that ends with a name. -/
theorem isElement_of_lastName_torches :
    ∃ im, Image.decode (Image.encode Image.torches).toArray = .ok im ∧
      (Link.start im).tree.find? none "torches.torches" = some ⟨1⟩ ∧
      (Link.start im).tree.IsElement ⟨1⟩ ∧
      ∀ path, Path.Spells "torches.torches".toList path → path.lastName = some "torches" := by
  obtain ⟨im, him, hfind, torches, htorches, helements, hfirst, path, hpath, hlast⟩ :
      ∃ im, Image.torches.image? = some im ∧
        (Link.start im).tree.find? none "torches.torches" = some ⟨1⟩ ∧
        ∃ torches ∈ (Link.start im).tree.node? ⟨0⟩, torches.decl.elements ≠ 0 ∧
          ⟨1⟩ ∈ torches.members ∧
          ∃ path ∈ Path.parse? "torches.torches", path.lastName = some "torches" := by
    decide +kernel
  refine ⟨im, (Image.isWrittenAs_torches him).decode, hfind, ⟨⟨0⟩, torches, htorches, helements,
    hfirst⟩, fun path' hspells => ?_⟩
  obtain rfl := hspells.unique (Path.parse?_eq_some_iff.1 hpath)
  exact hlast

end Tree

end ShaderEffect
