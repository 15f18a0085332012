import ShaderEffect.Proofs.Image.RoundTrip
import ShaderEffect.Proofs.Link.Values
import ShaderEffect.Proofs.Tree.Search

/-!
# Paths that are spelled

A parameter is reached from the top, or from an annotation, through names and places: the names of
members and the places of elements. Where no such name is empty or has a mark in it, the path can be
spelled and is read back (`Path.parse?_spell`); and where each is the first of its name, the path
leads to the parameter (`Tree.find?_spell`).
-/

namespace ShaderEffect

/-! ### Spelled paths -/

/-- A name that can be told from what is around it. -/
structure IsProperName (name : String) : Prop where
  ne_empty : name ≠ ""
  unmarked : ∀ c ∈ name.toList, Path.isMark c = false

instance (name : String) : Decidable (IsProperName name) :=
  decidable_of_iff (name ≠ "" ∧ name.toList.all (!Path.isMark ·) = true)
    ⟨fun h => ⟨h.1, by simpa using h.2⟩, fun h => ⟨h.ne_empty, by simpa using h.unmarked⟩⟩

namespace PathStep

/-- The text of a step. -/
def spell : PathStep → String
  | .member name => "." ++ name
  | .index i => "[" ++ toString i ++ "]"

/-- The text of a step can be read back. -/
def IsProper : PathStep → Prop
  | .member name => IsProperName name
  | .index i => i < 2 ^ 32

end PathStep

namespace Path

/-- The text of a path. -/
def spell (path : Path) : String :=
  path.name ++ (path.annotationName.elim "" ("@" ++ ·)) ++ String.join (path.steps.map (·.spell))

/-- The text of a path can be read back. -/
structure IsProper (path : Path) : Prop where
  name : IsProperName path.name
  note : ∀ note ∈ path.annotationName, IsProperName note
  steps : ∀ step ∈ path.steps, step.IsProper

lemma spellsSteps_join {steps : List PathStep} (h : ∀ step ∈ steps, step.IsProper) :
    SpellsSteps (String.join (steps.map (·.spell))).toList steps := by
  induction steps with
  | nil => exact .nil
  | cons step steps ih =>
    have hrest := ih fun s hs => h s (List.mem_cons_of_mem _ hs)
    have hstep := h step List.mem_cons_self
    have hspells : SpellsSteps step.spell.toList [step] := by
      cases step with
      | member name =>
        have hname : StartsWith name.toList name [] := ⟨by simp, hstep.unmarked, by simp⟩
        have htext : name.toList ≠ [] := by simpa using hstep.ne_empty
        simpa [PathStep.spell] using SpellsSteps.member htext hname .nil
      | index i => simpa [PathStep.spell] using SpellsSteps.index (denotes_toString hstep) .nil
    rw [List.map_cons, String.join_cons, String.toList_append]
    exact hspells.append hrest

lemma startsWith_append {name : String} (hname : IsProperName name) {rest : List Char}
    (hrest : ∀ c ∈ rest.head?, isMark c = true) : StartsWith (name.toList ++ rest) name rest :=
  ⟨rfl, hname.unmarked, hrest⟩

lemma spells_spell {path : Path} (h : path.IsProper) : Spells path.spell.toList path := by
  obtain ⟨name, annotationName, steps⟩ := path
  have hsteps := spellsSteps_join h.steps
  have hmarked := fun c hc => (hsteps.marked c hc).1
  rw [spell, String.toList_append, String.toList_append, List.append_assoc]
  cases annotationName with
  | none => exact .plain (startsWith_append h.name (by simpa using hmarked)) (by simpa using hsteps)
  | some note =>
    simp only [Option.elim_some, String.toList_append]
    exact .annotated (startsWith_append h.name (by simp [isMark]))
      (startsWith_append (h.note note rfl) hmarked) hsteps

/-- The text of a path is read as that path. -/
theorem parse?_spell {path : Path} (h : path.IsProper) : parse? path.spell = some path :=
  parse?_eq_some_iff.2 (spells_spell h)

end Path

namespace Tree

/-! ### Parameters and their paths -/

/-- Members of structs and elements of arrays lead from a parameter to a part of it; no name is
empty or has a mark in it, and each is the first of its name among the members. -/
inductive Chain (t : Tree) : Handle → List PathStep → Handle → Prop
  | done {h : Handle} : Chain t h [] h
  | member {h k h' : Handle} {p : Parameter} {name : String} {steps : List PathStep} :
      t.node? h = some p → IsProperName name → t.IsFirst p.members name k →
      Chain t k steps h' → Chain t h (.member name :: steps) h'
  | element {h k h' : Handle} {p : Parameter} {i : Nat} {steps : List PathStep} :
      t.node? h = some p → p.decl.elements ≠ 0 → p.members[i]? = some k →
      Chain t k steps h' → Chain t h (.index i :: steps) h'

/-- A path is that of a part of a top-level parameter, or of an annotation of one. -/
inductive IsPathOf (t : Tree) : Path → Handle → Prop
  | parameter {h h' : Handle} {name : String} {steps : List PathStep} : IsProperName name →
      t.IsFirst t.top name h → t.Chain h steps h' → IsPathOf t ⟨name, none, steps⟩ h'
  | note {h k h' : Handle} {p : Parameter} {name note : String} {steps : List PathStep} :
      IsProperName name → t.IsFirst t.top name h → t.node? h = some p → IsProperName note →
      t.IsFirst p.annotations note k → t.Chain k steps h' →
      IsPathOf t ⟨name, some note, steps⟩ h'

variable {t : Tree}

/-- In a tree that is made from an image, every place in an array can be spelled. -/
lemma Chain.leads {im : Image} {techniques : List Technique} (ht : Link.Made im t techniques)
    (him : im.WellFormed) {h h' : Handle} {steps : List PathStep} (hchain : t.Chain h steps h') :
    t.Leads h steps h' ∧ ∀ step ∈ steps, step.IsProper := by
  induction hchain with
  | done => exact ⟨.done, nofun⟩
  | member hp hname hfirst _ ih =>
    exact ⟨.member hp hfirst ih.1, List.forall_mem_cons.2 ⟨hname, ih.2⟩⟩
  | @element h k h' p i steps hp helements hk _ ih =>
    have hi : i < p.decl.elements.toNat :=
      ht.length_members him hp helements ▸ (List.getElem?_eq_some_iff.1 hk).1
    have hsmall : i < 2 ^ 32 := hi.trans p.decl.elements.toNat_lt
    exact ⟨.index hp hi hk ih.1, List.forall_mem_cons.2 ⟨hsmall, ih.2⟩⟩

lemma IsPathOf.reaches {im : Image} {techniques : List Technique} (ht : Link.Made im t techniques)
    (him : im.WellFormed) {path : Path} {h : Handle} (hpath : t.IsPathOf path h) :
    t.Reaches t.top path h ∧ path.IsProper := by
  cases hpath with
  | parameter hname hfirst hchain =>
    obtain ⟨hleads, hsteps⟩ := hchain.leads ht him
    exact ⟨.plain hfirst hleads, hname, nofun, hsteps⟩
  | note hname hfirst hp hnote hnoted hchain =>
    obtain ⟨hleads, hsteps⟩ := hchain.leads ht him
    exact ⟨.annotated hfirst hp hnoted hleads, hname, by simpa using hnote, hsteps⟩

/-- In every tree of an image that was read, a parameter is found by the text of its path. -/
theorem find?_spell {stored : Bytes} {im : Image} (hdecode : Image.decode stored = .ok im)
    (ht : Link.IsTreeOf im t) {path : Path} {h : Handle} (hpath : t.IsPathOf path h) :
    t.find? none path.spell = some h := by
  obtain ⟨techniques, hmade⟩ := ht.exists_made
  obtain ⟨hreaches, hproper⟩ := hpath.reaches hmade (Image.WellFormed.of_decode hdecode)
  have htext : path.spell ≠ "" := fun hempty => by
    have hname : path.name = "" := by
      rw [Path.spell, String.append_eq_empty_iff, String.append_eq_empty_iff] at hempty
      exact hempty.1.1
    exact hproper.name.ne_empty hname
  exact find?_none_eq_some_iff.2 ⟨htext, path, Path.spells_spell hproper, hreaches⟩

/-- The place of the second torch is found by its path, and so is the label of the torches. -/
theorem find?_spell_torches :
    ∃ im, Image.decode (Image.encode Image.torches).toArray = .ok im ∧
      (Link.start im).tree.find? none "torches[1].place" = some ⟨7⟩ ∧
      (Link.start im).tree.find? none "torches@label" = some ⟨9⟩ := by
  obtain ⟨im, him, torches, htorches, second, hsecond, htop, helements, hmember, hplace, hlabel⟩ :
      ∃ im, Image.torches.image? = some im ∧
        ∃ torches ∈ (Link.start im).tree.node? ⟨0⟩, ∃ second ∈ (Link.start im).tree.node? ⟨6⟩,
          (Link.start im).tree.named? (Link.start im).tree.top "torches" = some ⟨0⟩ ∧
          torches.decl.elements ≠ 0 ∧ torches.members[1]? = some ⟨6⟩ ∧
          (Link.start im).tree.named? second.members "place" = some ⟨7⟩ ∧
          (Link.start im).tree.named? torches.annotations "label" = some ⟨9⟩ := by
    decide +kernel
  have hdecode := (Image.isWrittenAs_torches him).decode
  have hfirst := named?_eq_some_iff.1 htop
  have hproper : IsProperName "torches" := by decide +kernel
  have hchain : (Link.start im).tree.Chain ⟨0⟩ [.index 1, .member "place"] ⟨7⟩ :=
    .element htorches helements hmember
      (.member hsecond (by decide +kernel) (named?_eq_some_iff.1 hplace) .done)
  exact ⟨im, hdecode, find?_spell hdecode .laid (.parameter hproper hfirst hchain),
    find?_spell hdecode .laid (.note hproper hfirst htorches (by decide +kernel)
      (named?_eq_some_iff.1 hlabel) .done)⟩

end Tree

end ShaderEffect
