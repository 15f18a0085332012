import ShaderEffect.Proofs.Tree.Grammar
import ShaderEffect.Tree.Build
import ShaderEffect.Tree.Lookup

/-!
# What paths lead to

A name stands for the first parameter of a list that has it, and a step for a part of a parameter:
a member of the name, or an element of an array. What is found for a text is where the path leads
that the text spells. A text that spells no path leads nowhere, and so does a path with a step that
stands for nothing.
-/

namespace ShaderEffect.Tree

variable {t : Tree}

/-! ### Where paths lead -/

/-- The parameter at a handle has a name. -/
def IsNamed (t : Tree) (name : String) (h : Handle) : Prop :=
  ∃ p, t.node? h = some p ∧ p.decl.name = some name

/-- A parameter is the first of a list that has a name. -/
def IsFirst (t : Tree) (list : List Handle) (name : String) (h : Handle) : Prop :=
  ∃ before after, list = before ++ h :: after ∧ t.IsNamed name h ∧
    ∀ h' ∈ before, ¬ t.IsNamed name h'

/-- Steps lead from a parameter to a part of it. -/
inductive Leads (t : Tree) : Handle → List PathStep → Handle → Prop
  | done {h : Handle} : Leads t h [] h
  | member {h k h' : Handle} {p : Parameter} {name : String} {steps : List PathStep} :
      t.node? h = some p → t.IsFirst p.members name k → Leads t k steps h' →
      Leads t h (.member name :: steps) h'
  | index {h k h' : Handle} {p : Parameter} {i : Nat} {steps : List PathStep} :
      t.node? h = some p → i < p.decl.elements.toNat → p.members[i]? = some k →
      Leads t k steps h' → Leads t h (.index i :: steps) h'

/-- A path leads from a list of parameters to one of them, to an annotation of one of them, or to a
part of either. -/
inductive Reaches (t : Tree) (list : List Handle) : Path → Handle → Prop
  | plain {h h' : Handle} {name : String} {steps : List PathStep} : t.IsFirst list name h →
      t.Leads h steps h' → Reaches t list ⟨name, none, steps⟩ h'
  | annotated {h k h' : Handle} {p : Parameter} {name note : String} {steps : List PathStep} :
      t.IsFirst list name h → t.node? h = some p → t.IsFirst p.annotations note k →
      t.Leads k steps h' → Reaches t list ⟨name, some note, steps⟩ h'

/-! ### Names -/

lemma isNamed_iff {name : String} {h : Handle} :
    (t.node? h).any (·.decl.name == some name) = true ↔ t.IsNamed name h := by
  rw [IsNamed, Option.any_eq_true]
  simp only [beq_iff_eq]

lemma named?_eq_find? (list : List Handle) (name : String) :
    t.named? list name = list.find? fun h => (t.node? h).any (·.decl.name == some name) := by
  rw [named?]
  congr 1
  funext h
  cases t.node? h <;> rfl

lemma named?_eq_some_iff {list : List Handle} {name : String} {h : Handle} :
    t.named? list name = some h ↔ t.IsFirst list name h := by
  rw [named?_eq_find?, List.find?_eq_some_iff_append]
  simp only [Bool.not_eq_true', ← Bool.not_eq_true, isNamed_iff]
  constructor
  · rintro ⟨hnamed, before, after, hlist, hbefore⟩
    exact ⟨before, after, hlist, hnamed, hbefore⟩
  · rintro ⟨before, after, hlist, hnamed, hbefore⟩
    exact ⟨hnamed, before, after, hlist, hbefore⟩

/-! ### Steps -/

lemma element?_eq_some_iff {h k : Handle} {i : Nat} :
    t.element? h i = some k ↔
      ∃ p, t.node? h = some p ∧ i < p.decl.elements.toNat ∧ p.members[i]? = some k := by
  rw [element?, Option.bind_eq_bind, Option.bind_eq_some_iff]
  refine exists_congr fun p => and_congr_right fun _ => ?_
  by_cases hi : i < p.decl.elements.toNat <;> simp [hi]

lemma walk?_eq_some_iff {h h' : Handle} {steps : List PathStep} :
    t.walk? h steps = some h' ↔ t.Leads h steps h' := by
  constructor
  · intro hwalk
    induction steps generalizing h with
    | nil => exact Option.some.inj hwalk ▸ .done
    | cons step steps ih =>
      obtain ⟨k, hstep, hrest⟩ := Option.bind_eq_some_iff.1 hwalk
      cases step with
      | member name =>
        obtain ⟨p, hp, hnamed⟩ := Option.bind_eq_some_iff.1 hstep
        exact .member hp (named?_eq_some_iff.1 hnamed) (ih hrest)
      | index i =>
        obtain ⟨p, hp, hi, hk⟩ := element?_eq_some_iff.1 hstep
        exact .index hp hi hk (ih hrest)
  · intro hleads
    induction hleads with
    | done => rfl
    | member hp hfirst _ ih => simp [walk?, step?, hp, named?_eq_some_iff.2 hfirst, ih]
    | index hp hi hk _ ih =>
      simp [walk?, step?, element?_eq_some_iff.2 ⟨_, hp, hi, hk⟩, ih]

lemma walk?_append (h : Handle) (steps further : List PathStep) :
    t.walk? h (steps ++ further) = (t.walk? h steps).bind (t.walk? · further) := by
  induction steps generalizing h with
  | nil => rfl
  | cons step steps ih =>
    simp only [List.cons_append, walk?, Option.bind_eq_bind, Option.bind_assoc, ih]

/-! ### Paths -/

lemma follow?_eq_some_iff {list : List Handle} {path : Path} {h : Handle} :
    t.follow? list path = some h ↔ t.Reaches list path h := by
  obtain ⟨name, annotationName, steps⟩ := path
  constructor
  · intro hfollow
    obtain ⟨k, hnamed, hfollow⟩ := Option.bind_eq_some_iff.1 hfollow
    have hfirst := named?_eq_some_iff.1 hnamed
    cases annotationName with
    | none => exact .plain hfirst (walk?_eq_some_iff.1 hfollow)
    | some note =>
      obtain ⟨p, hp, hfollow⟩ := Option.bind_eq_some_iff.1 hfollow
      obtain ⟨a, hnote, hwalk⟩ := Option.bind_eq_some_iff.1 hfollow
      exact .annotated hfirst hp (named?_eq_some_iff.1 hnote) (walk?_eq_some_iff.1 hwalk)
  · intro hreaches
    cases hreaches with
    | plain hfirst hleads =>
      simp [follow?, named?_eq_some_iff.2 hfirst, walk?_eq_some_iff.2 hleads]
    | annotated hfirst hp hnote hleads =>
      simp [follow?, named?_eq_some_iff.2 hfirst, hp, named?_eq_some_iff.2 hnote,
        walk?_eq_some_iff.2 hleads]

/-- A path that goes further leads on from where it led. -/
lemma follow?_append (list : List Handle) (path : Path) (further : List PathStep) :
    t.follow? list { path with steps := path.steps ++ further } =
      (t.follow? list path).bind (t.walk? · further) := by
  obtain ⟨name, annotationName, steps⟩ := path
  cases annotationName with
  | none => simp [follow?, walk?_append, Option.bind_assoc]
  | some note => simp [follow?, walk?_append, Option.bind_assoc]

lemma find?_none_eq_some_iff {text : String} {h : Handle} :
    t.find? none text = some h ↔
      text ≠ "" ∧ ∃ path, Path.Spells text.toList path ∧ t.Reaches t.top path h := by
  by_cases htext : text = ""
  · simp [find?, htext]
  · simp only [find?, htext, if_false, Option.bind_eq_bind, Option.bind_eq_some_iff,
      Path.parse?_eq_some_iff, follow?_eq_some_iff, ne_eq, not_false_eq_true, true_and]

lemma find?_some_eq_some_iff {base : Handle} {text : String} {h : Handle} (htext : text ≠ "") :
    t.find? (some base) text = some h ↔ ∃ p path, t.node? base = some p ∧
      Path.Spells text.toList path ∧ path.annotationName = none ∧ t.Reaches p.members path h := by
  simp only [find?, htext, if_false, Option.bind_eq_bind, Option.bind_eq_some_iff,
    Path.parsePlain?_eq_some_iff, follow?_eq_some_iff, and_assoc, exists_and_left]

lemma annotationByPath?_eq_some_iff {list : List Handle} {text : String} {h : Handle} :
    t.annotationByPath? list text = some h ↔ ∃ path, Path.Spells text.toList path ∧
      path.annotationName = none ∧ t.Reaches list path h := by
  simp only [annotationByPath?, Option.bind_eq_bind, Option.bind_eq_some_iff,
    Path.parsePlain?_eq_some_iff, follow?_eq_some_iff, and_assoc]

/-! ### Paths that are put together -/

lemma find?_none_of_spells {text : String} {path : Path} (htext : text ≠ "")
    (hspells : Path.Spells text.toList path) : t.find? none text = t.follow? t.top path := by
  simp only [find?, htext, if_false, Path.parse?_eq_some_iff.2 hspells, Option.bind_eq_bind,
    Option.bind_some]

/-- An index behind a path leads to an element. -/
lemma find?_index {text : String} {h : Handle} (hfind : t.find? none text = some h) {i : Nat}
    (hi : i < 2 ^ 32) : t.find? none (text ++ "[" ++ toString i ++ "]") = t.element? h i := by
  obtain ⟨-, path, hspells, hreaches⟩ := find?_none_eq_some_iff.1 hfind
  have hstep := Path.SpellsSteps.index (Path.denotes_toString hi) .nil
  have hspells' : Path.Spells (text ++ "[" ++ toString i ++ "]").toList
      { path with steps := path.steps ++ [.index i] } := by
    simpa using hspells.append hstep
  have htext : text ++ "[" ++ toString i ++ "]" ≠ "" := by simp
  rw [find?_none_of_spells htext hspells', follow?_append, follow?_eq_some_iff.2 hreaches,
    Option.bind_some, walk?, step?]
  simp [walk?]

/-- Behind the name of a top-level parameter and an at sign, a path leads on from its
annotations. -/
lemma find?_note {name : String} (hname : ∀ c ∈ name.toList, Path.isMark c = false)
    {h : Handle} (hfirst : t.IsFirst t.top name h) {p : Parameter} (hp : t.node? h = some p)
    (text : String) :
    t.find? none (name ++ "@" ++ text) = t.annotationByPath? p.annotations text := by
  have hstart : Path.StartsWith (name ++ "@" ++ text).toList name ('@' :: text.toList) :=
    ⟨by simp, hname, by simp [Path.isMark]⟩
  have htext : name ++ "@" ++ text ≠ "" := by simp
  have hparse : Path.parse? (name ++ "@" ++ text) =
      (Path.parsePlain? text).map fun path => ⟨name, some path.name, path.steps⟩ := by
    rw [Path.parse?, Path.splitName_eq_iff.2 hstart, Path.parsePlain?]
    simp [Function.comp_def]
  have hnamed := named?_eq_some_iff.2 hfirst
  rw [find?, if_neg htext, hparse, annotationByPath?]
  cases hplain : Path.parsePlain? text with
  | none => rfl
  | some path =>
    have hnone := (Path.parsePlain?_eq_some_iff.1 hplain).2
    simp [follow?, hnamed, hp, hnone]

/-! ### All look-ups by path -/

/-- What is found for a text, from the top, from the children of a parameter or in a list of
annotations, is where the path leads that the text spells; only from the top may it name an
annotation. So an index behind a path leads to an element, and what follows the at sign behind a
name is a path from the annotations of the parameter of that name. -/
theorem resolves_iff_spelled (t : Tree) :
    (∀ text h, t.find? none text = some h ↔
      text ≠ "" ∧ ∃ path, Path.Spells text.toList path ∧ t.Reaches t.top path h) ∧
    (∀ base text h, text ≠ "" → (t.find? (some base) text = some h ↔
      ∃ p path, t.node? base = some p ∧ Path.Spells text.toList path ∧
        path.annotationName = none ∧ t.Reaches p.members path h)) ∧
    (∀ base, t.find? base "" = base) ∧
    (∀ list text h, t.annotationByPath? list text = some h ↔
      ∃ path, Path.Spells text.toList path ∧ path.annotationName = none ∧ t.Reaches list path h) ∧
    (∀ text h i, t.find? none text = some h → i < 2 ^ 32 →
      t.find? none (text ++ "[" ++ toString i ++ "]") = t.element? h i) ∧
    ∀ name h p text, (∀ c ∈ name.toList, Path.isMark c = false) → t.IsFirst t.top name h →
      t.node? h = some p →
        t.find? none (name ++ "@" ++ text) = t.annotationByPath? p.annotations text :=
  ⟨fun _ _ => find?_none_eq_some_iff, fun _ _ _ => find?_some_eq_some_iff, fun _ => if_pos rfl,
    fun _ _ _ => annotationByPath?_eq_some_iff, fun _ _ _ hfind hi => find?_index hfind hi,
    fun _ _ _ text hname hfirst hp => find?_note hname hfirst hp text⟩

/-- A shelf with two books on it, and a note of the room. -/
def shelf : Tree :=
  let decl (name : String) (cls : ParameterClass) (type : ParameterType) (elements : UInt32) :
      Declaration := ⟨some name, none, cls, type, 1, 1, elements⟩
  let pages (n : UInt32) : Node := .words (decl "books" .scalar .int 0) [n]
  let (h, g) := (Growth.addParameter {
    flags := 0
    node := .struct (decl "shelf" .struct .void 0)
      [.array (decl "books" .scalar .int 2) [pages 120, pages 84]]
    annotations := [.words (decl "room" .scalar .int 0) [7]] }).run {}
  ⟨g.nodes, [h], g.initial⟩

/-- The books are where the path leads that is spelled for them, the second book is found behind it,
and the room among the notes. -/
theorem resolves_iff_spelled_shelf :
    (∃ path, Path.Spells "shelf.books".toList path ∧ shelf.Reaches shelf.top path ⟨1⟩) ∧
      (∃ p path, shelf.node? ⟨0⟩ = some p ∧ Path.Spells "books[1]".toList path ∧
        path.annotationName = none ∧ shelf.Reaches p.members path ⟨3⟩) ∧
      shelf.find? none ("shelf.books" ++ "[" ++ toString 1 ++ "]") = some ⟨3⟩ ∧
      shelf.find? none ("shelf" ++ "@" ++ "room") = some ⟨4⟩ := by
  obtain ⟨htop, hbase, -, -, hindex, hnote⟩ := resolves_iff_spelled shelf
  have hbooks : shelf.find? none "shelf.books" = some ⟨1⟩ := by decide +kernel
  have hsecond : shelf.find? (some ⟨0⟩) "books[1]" = some ⟨3⟩ := by decide +kernel
  have hname : ∀ c ∈ "shelf".toList, Path.isMark c = false := by
    simpa using (show "shelf".toList.all (!Path.isMark ·) = true by decide +kernel)
  have hshelf : shelf.IsFirst shelf.top "shelf" ⟨0⟩ := ⟨[], [], rfl, ⟨_, rfl, rfl⟩, by simp⟩
  exact ⟨((htop "shelf.books" ⟨1⟩).1 hbooks).2,
    (hbase ⟨0⟩ "books[1]" ⟨3⟩ (by decide +kernel)).1 hsecond,
    (hindex "shelf.books" ⟨1⟩ 1 hbooks (by decide +kernel)).trans (by decide +kernel),
    (hnote "shelf" ⟨0⟩ _ "room" hname hshelf rfl).trans (by decide +kernel)⟩

end ShaderEffect.Tree
