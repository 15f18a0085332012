import ShaderEffect.Apply.Pass
import ShaderEffect.Proofs.Writing

/-!
# What stays while states are applied

To apply states is to write memory, since expressions store what they compute. They store it in the
blocks of their own states, which nothing else reads. So memories that differ in such blocks only
(`LinkedEffect.Alike`) hold the same values for all that states read.
-/

namespace ShaderEffect

namespace BoundProgram

/-- The parameters a program reads. -/
def handles (p : BoundProgram) : List Handle := p.inputs.filterMap (·.2)

lemma mem_handles {p : BoundProgram} {h : Handle} :
    h ∈ p.handles ↔ ∃ c, (c, some h) ∈ p.inputs := by
  simp [handles]

end BoundProgram

namespace LinkedEffect

variable (e : LinkedEffect)

/-! ### States and what they read -/

/-- The state at a place. -/
def stateAt? (place : Link.StatePlace) : Option StateEntry :=
  Link.stateAt ⟨e.tree, e.techniques, .empty, 0⟩ place

/-- A block that holds what an expression computes. -/
def Computed (id : Nat) : Prop :=
  ∃ place s p, e.stateAt? place = some s ∧ s.source = .expression p ∧
    e.blockOf? s.param = some id

/-- A parameter that holds no computed value. -/
def Stable (h : Handle) : Prop := ∀ id, e.blockOf? h = some id → ¬e.Computed id

/-- The parameters a state may take its value from, and those that decide which. -/
def reads (s : StateEntry) : List Handle :=
  match s.source with
  | .constant => [s.param]
  | .parameter h => [h]
  | .expression p => p.handles
  | .selector array p =>
    array :: p.handles ++ ((e.tree.node? array).map (·.members)).getD []

/-- A state that reads no computed value, and stores only in computed blocks. -/
structure Sound (s : StateEntry) : Prop where
  stable : ∀ h ∈ e.reads s, e.Stable h
  computed : ∀ p, s.source = .expression p → ∀ id, e.blockOf? s.param = some id → e.Computed id

/-- Only elements of an array are selected from it. -/
lemma mem_members_of_select {tree : Tree} {array h : Handle} {x : Single}
    (hselect : tree.select array x = .ok h) :
    h ∈ ((tree.node? array).map (·.members)).getD [] := by
  rw [Tree.select] at hselect
  split at hselect
  · cases hselect
  · rename_i p hp
    split at hselect
    · cases hselect
    · split at hselect
      · split at hselect
        · rename_i hmember
          cases hselect
          rw [hp]
          exact List.mem_of_getElem? hmember
        · cases hselect
      · cases hselect

/-- An effect whose computed values are read by nothing but their own states. -/
structure Settled : Prop where
  find : ∀ path h, e.tree.find? none path = some h → e.Stable h
  nodes : ∀ h p, e.tree.node? h = some p → ∀ s ∈ p.states, e.Sound s
  passes : ∀ t ∈ e.techniques, ∀ p ∈ t.passes, ∀ s ∈ p.states, e.Sound s

/-! ### Memories that differ in computed values only -/

/-- The blocks of an effect. -/
def Owns (id : Nat) : Prop := ∃ root : Nat, e.roots[root]? = some id

/-- Memories in which the blocks of an effect hold the same objects and as many words. -/
structure SameShape (m m' : Memory) : Prop where
  objects : ∀ id, e.Owns id → (m'.block id).objects = (m.block id).objects
  size_words : ∀ id, e.Owns id → (m'.block id).words.size = (m.block id).words.size

/-- Memories in which the blocks of an effect differ only in computed words. -/
structure Alike (m m' : Memory) : Prop extends e.SameShape m m' where
  block : ∀ id, e.Owns id → ¬e.Computed id → m'.block id = m.block id

variable {e} {m m' m'' : Memory} {h : Handle}

lemma owns_of_blockOf? {id : Nat} (hid : e.blockOf? h = some id) : e.Owns id := by
  obtain ⟨p, -, hid⟩ := e.blockOf?_eq_some.1 hid
  exact ⟨p.root, hid⟩

namespace SameShape

lemma refl (m : Memory) : e.SameShape m m := ⟨fun _ _ => rfl, fun _ _ => rfl⟩

lemma trans (hm : e.SameShape m m') (hm' : e.SameShape m' m'') : e.SameShape m m'' where
  objects id hid := (hm'.objects id hid).trans (hm.objects id hid)
  size_words id hid := (hm'.size_words id hid).trans (hm.size_words id hid)

end SameShape

namespace Alike

lemma refl (m : Memory) : e.Alike m m := ⟨.refl m, fun _ _ _ => rfl⟩

lemma trans (hm : e.Alike m m') (hm' : e.Alike m' m'') : e.Alike m m'' where
  toSameShape := hm.toSameShape.trans hm'.toSameShape
  block id hown hid := (hm'.block id hown hid).trans (hm.block id hown hid)

end Alike

lemma words_congr (hblock : ∀ id, e.blockOf? h = some id → m'.block id = m.block id) :
    e.words m' h = e.words m h := by
  rw [words, words]
  split
  case h_1 p id hp hid => rw [hblock id hid]
  case h_2 => rfl

lemma length_words_congr
    (hblock : ∀ id, e.blockOf? h = some id → (m'.block id).words.size = (m.block id).words.size) :
    (e.words m' h).length = (e.words m h).length := by
  rw [words, words]
  split
  case h_1 p id hp hid => exact Slice.length_read_congr _ (hblock id hid)
  case h_2 => rfl

lemma objects_congr
    (hblock : ∀ id, e.blockOf? h = some id → (m'.block id).objects = (m.block id).objects) :
    e.objects m' h = e.objects m h := by
  rw [objects, objects]
  split
  case h_1 p id hp hid => rw [hblock id hid]
  case h_2 => rfl

lemma version_congr (hblock : ∀ id, e.blockOf? h = some id → m'.block id = m.block id) :
    e.version m' h = e.version m h := by
  rw [version, version]
  split
  case h_1 id hid => rw [hblock id hid]
  case h_2 => rfl

/-! ### Programs depend on the words of their inputs -/

lemma floatRegisters_congr {c : Constant} (hwords : e.words m' h = e.words m h) :
    e.floatRegisters m' h c = e.floatRegisters m h c := by
  simp only [floatRegisters, registers, leaves, hwords]

lemma upload_congr {stage : Stage} {c : Constant} (hwords : e.words m' h = e.words m h) :
    e.upload m' stage c h = e.upload m stage c h := by
  simp only [upload, floatRegisters, intRegisters, boolRegisters, registers, leaves, hwords]

lemma run_congr {p : BoundProgram} (hwords : ∀ h ∈ p.handles, e.words m' h = e.words m h) :
    e.run m' p = e.run m p := by
  have hplace : ∀ inputs : List (Constant × Option Handle),
      (∀ c h, (c, some h) ∈ inputs → e.words m' h = e.words m h) → ∀ table,
        inputs.foldl (e.placeInput m') table = inputs.foldl (e.placeInput m) table := by
    intro inputs hinputs
    induction inputs with
    | nil => exact fun _ => rfl
    | cons input rest ih =>
      intro table
      have hfirst : e.placeInput m' table input = e.placeInput m table input := by
        match input with
        | (c, none) => rfl
        | (c, some h) =>
          simp only [placeInput, floatRegisters_congr (hinputs c h List.mem_cons_self)]
      rw [List.foldl_cons, List.foldl_cons, hfirst]
      exact ih (fun c h hmem => hinputs c h (List.mem_cons_of_mem _ hmem)) _
  rw [run, run, inputBank, inputBank, hplace]
  exact fun c h hmem => hwords h (BoundProgram.mem_handles.2 ⟨c, hmem⟩)

lemma runFirst_congr {p : BoundProgram} (hwords : ∀ h ∈ p.handles, e.words m' h = e.words m h) :
    e.runFirst m' p = e.runFirst m p := by
  rw [runFirst, runFirst, run_congr hwords]

/-- Whether one of some parameters was written after the given update. -/
def anyDirty (e : LinkedEffect) (m : Memory) (hs : List Handle) (since : Nat) : Bool :=
  hs.any (e.isDirty m · since)

lemma anyDirty_handles (p : BoundProgram) (since : Nat) :
    e.anyDirty m p.handles since = e.inputsDirty m p since := by
  rw [anyDirty, inputsDirty, BoundProgram.handles]
  induction p.inputs with
  | nil => rfl
  | cons input rest ih =>
    match input with
    | (c, none) => simpa using ih
    | (c, some h) => simpa using congrArg _ ih

/-! ### Reading from memories that are alike -/

namespace SameShape

variable (hm : e.SameShape m m')
include hm

lemma object? (h : Handle) : e.object? m' h = e.object? m h := by
  rw [LinkedEffect.object?, LinkedEffect.object?,
    objects_congr fun id hid => hm.objects id (owns_of_blockOf? hid)]

lemma texture? (h : Handle) : e.texture? m' h = e.texture? m h := by
  rw [LinkedEffect.texture?, LinkedEffect.texture?, hm.object?]

lemma shader? (h : Handle) : e.shader? m' h = e.shader? m h := by
  rw [LinkedEffect.shader?, LinkedEffect.shader?, hm.object?]

lemma length_words (h : Handle) : (e.words m' h).length = (e.words m h).length :=
  length_words_congr fun id hid => hm.size_words id (owns_of_blockOf? hid)

end SameShape

namespace Alike

variable (hm : e.Alike m m')
include hm

lemma words (hh : e.Stable h) : e.words m' h = e.words m h :=
  words_congr fun id hid => hm.block id (owns_of_blockOf? hid) (hh id hid)

lemma version (hh : e.Stable h) : e.version m' h = e.version m h :=
  version_congr fun id hid => hm.block id (owns_of_blockOf? hid) (hh id hid)

lemma isDirty (hh : e.Stable h) (since : Nat) : e.isDirty m' h since = e.isDirty m h since := by
  rw [LinkedEffect.isDirty, LinkedEffect.isDirty, hm.version hh]

lemma anyDirty {hs : List Handle} (hhs : ∀ h ∈ hs, e.Stable h) (since : Nat) :
    e.anyDirty m' hs since = e.anyDirty m hs since := by
  rw [LinkedEffect.anyDirty, LinkedEffect.anyDirty, Bool.eq_iff_iff, List.any_eq_true,
    List.any_eq_true]
  exact exists_congr fun h => and_congr_right fun hmem => by rw [hm.isDirty (hhs h hmem)]

lemma run {p : BoundProgram} (hp : ∀ h ∈ p.handles, e.Stable h) : e.run m' p = e.run m p :=
  run_congr fun h hmem => hm.words (hp h hmem)

lemma runFirst {p : BoundProgram} (hp : ∀ h ∈ p.handles, e.Stable h) :
    e.runFirst m' p = e.runFirst m p :=
  runFirst_congr fun h hmem => hm.words (hp h hmem)

end Alike

end LinkedEffect

end ShaderEffect
