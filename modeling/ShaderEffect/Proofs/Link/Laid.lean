import Mathlib.Data.List.Nodup
import ShaderEffect.Proofs.Link.Growth

/-!
# How linked trees are laid out

The parameters of an effect are its top-level parameters, all annotations, and the members and
elements of these. In the tree of an image (`Laid`) a node has the root of the node it is under, and
no parameter has the root of a state's own value. Linking attaches sources to states and keeps the
rest (`SameSkeleton`).
-/

namespace ShaderEffect

open Growth (annotationsOf statesOf)

/-- The root of the node at a handle. -/
def Tree.root? (t : Tree) (h : Handle) : Option Nat := (t.node? h).map (·.root)

lemma Tree.root?_of_node? {t : Tree} {h : Handle} {p : Parameter} (hp : t.node? h = some p) :
    t.root? h = some p.root := by
  rw [root?, hp]
  rfl

/-- A state without a source. -/
def StateEntry.bare (s : StateEntry) : StateEntry := { s with source := .constant }

/-- A node whose states have no sources. -/
def Parameter.bare (p : Parameter) : Parameter := { p with states := p.states.map StateEntry.bare }

namespace Link

/-- All states: those of passes and those of samplers. -/
def allStates (t : Tree) (techniques : List Technique) : List StateEntry :=
  statesOf techniques ++ t.nodes.toList.flatMap (·.states)

/-- The parameters of an effect. -/
inductive IsParameter (t : Tree) (techniques : List Technique) : Handle → Prop
  | top {h : Handle} : h ∈ t.top → IsParameter t techniques h
  /-- The annotation of a technique or of a pass. -/
  | outer {h : Handle} : h ∈ annotationsOf techniques → IsParameter t techniques h
  | member {h h' : Handle} {p : Parameter} : IsParameter t techniques h → t.node? h = some p →
      h' ∈ p.members → IsParameter t techniques h'
  | note {h h' : Handle} {p : Parameter} : IsParameter t techniques h → t.node? h = some p →
      h' ∈ p.annotations → IsParameter t techniques h'

/-- A tree in which the parameters and the values of states have roots of their own. -/
structure Laid (t : Tree) (techniques : List Technique) : Prop where
  root_lt : ∀ h r, t.root? h = some r → r < t.initial.size
  members : ∀ h p, t.node? h = some p → ∀ h' ∈ p.members, t.root? h' = some p.root
  owned : ∀ h, IsParameter t techniques h → ∃ r, t.root? h = some r
  stateOwned : ∀ s ∈ allStates t techniques, ∃ r, t.root? s.param = some r
  top : ∀ h ∈ t.top, ∀ h' ∈ t.top, t.root? h = t.root? h' → h = h'
  states : ((allStates t techniques).map fun s => t.root? s.param).Nodup
  apart : ∀ h, IsParameter t techniques h → ∀ s ∈ allStates t techniques,
    t.root? h ≠ t.root? s.param

/-! ### States and their places -/

lemma mem_allStates_of_stateAt {l : Linking} {place : StatePlace} {s : StateEntry}
    (h : stateAt l place = some s) : s ∈ allStates l.tree l.techniques := by
  rw [allStates, List.mem_append]
  cases place with
  | sampler h' i =>
    obtain ⟨p, hp, hs⟩ := Option.bind_eq_some_iff.1 h
    refine .inr (List.mem_flatMap.2 ⟨p, ?_, List.mem_of_getElem? hs⟩)
    exact Array.mem_toList_iff.2 (Array.mem_of_getElem? hp)
  | pass t p i =>
    obtain ⟨technique, htechnique, h⟩ := Option.bind_eq_some_iff.1 h
    obtain ⟨pass, hpass, hs⟩ := Option.bind_eq_some_iff.1 h
    exact .inl (List.mem_flatMap.2 ⟨technique, List.mem_of_getElem? htechnique,
      List.mem_flatMap.2 ⟨pass, List.mem_of_getElem? hpass, List.mem_of_getElem? hs⟩⟩)

lemma exists_stateAt_of_mem_pass {l : Linking} {technique : Technique}
    (ht : technique ∈ l.techniques) {pass : Pass} (hp : pass ∈ technique.passes) {s : StateEntry}
    (hs : s ∈ pass.states) : ∃ place, stateAt l place = some s := by
  obtain ⟨t, ht⟩ := List.mem_iff_getElem?.1 ht
  obtain ⟨p, hp⟩ := List.mem_iff_getElem?.1 hp
  obtain ⟨i, hi⟩ := List.mem_iff_getElem?.1 hs
  exact ⟨.pass t p i, by simp [stateAt, ht, hp, hi]⟩

lemma exists_stateAt_of_mem_node {l : Linking} {h : Handle} {p : Parameter}
    (hp : l.tree.node? h = some p) {s : StateEntry} (hs : s ∈ p.states) :
    ∃ place, stateAt l place = some s := by
  obtain ⟨i, hi⟩ := List.mem_iff_getElem?.1 hs
  exact ⟨.sampler h i, by simp [stateAt, hp, hi]⟩

lemma mem_allStates_of_mem_pass {t : Tree} {techniques : List Technique} {technique : Technique}
    (ht : technique ∈ techniques) {pass : Pass} (hp : pass ∈ technique.passes) {s : StateEntry}
    (hs : s ∈ pass.states) : s ∈ allStates t techniques :=
  List.mem_append_left _ (List.mem_flatMap.2 ⟨_, ht, List.mem_flatMap.2 ⟨_, hp, hs⟩⟩)

/-! ### Look-ups lead to parameters -/

section

variable {t : Tree} {techniques : List Technique}

lemma mem_of_named? {list : List Handle} {name : String} {h : Handle}
    (hnamed : t.named? list name = some h) : h ∈ list :=
  List.mem_of_find?_eq_some hnamed

lemma IsParameter.of_element? {h h' : Handle} {i : Nat} (hh : IsParameter t techniques h)
    (helement : t.element? h i = some h') : IsParameter t techniques h' := by
  obtain ⟨p, hp, helement⟩ := Option.bind_eq_some_iff.1 helement
  split at helement
  · exact hh.member hp (List.mem_of_getElem? helement)
  · cases helement

lemma IsParameter.of_walk? {h h' : Handle} {steps : List PathStep}
    (hh : IsParameter t techniques h) (hwalk : t.walk? h steps = some h') :
    IsParameter t techniques h' := by
  induction steps generalizing h with
  | nil =>
    cases hwalk
    exact hh
  | cons step rest ih =>
    obtain ⟨next, hstep, hrest⟩ := Option.bind_eq_some_iff.1 hwalk
    refine ih ?_ hrest
    cases step with
    | member name =>
      obtain ⟨p, hp, hnamed⟩ := Option.bind_eq_some_iff.1 hstep
      exact hh.member hp (mem_of_named? hnamed)
    | index i => exact hh.of_element? hstep

lemma IsParameter.of_follow? {list : List Handle} {path : Path} {h : Handle}
    (hlist : ∀ h ∈ list, IsParameter t techniques h) (hfollow : t.follow? list path = some h) :
    IsParameter t techniques h := by
  obtain ⟨first, hfirst, hfollow⟩ := Option.bind_eq_some_iff.1 hfollow
  have hparameter := hlist first (mem_of_named? hfirst)
  split at hfollow
  · exact hparameter.of_walk? hfollow
  · obtain ⟨p, hp, hfollow⟩ := Option.bind_eq_some_iff.1 hfollow
    obtain ⟨note, hnamed, hwalk⟩ := Option.bind_eq_some_iff.1 hfollow
    exact (hparameter.note hp (mem_of_named? hnamed)).of_walk? hwalk

/-- A path from the top leads to a parameter. -/
lemma IsParameter.of_find? {path : String} {h : Handle} (hfind : t.find? none path = some h) :
    IsParameter t techniques h := by
  rw [Tree.find?] at hfind
  split at hfind
  · cases hfind
  · obtain ⟨steps, -, hfollow⟩ := Option.bind_eq_some_iff.1 hfind
    exact .of_follow? (fun _ => .top) hfollow

/-- What is under the root of a parameter is apart from the values of states. -/
lemma IsParameter.exists_root? {params : List Handle} {h : Handle}
    (hh : IsParameter t techniques h) (htop : t.top ++ annotationsOf techniques ⊆ params)
    (hmembers : ∀ h p, t.node? h = some p → ∀ h' ∈ p.members, t.root? h' = some p.root)
    (hannotations : ∀ h p, t.node? h = some p → p.annotations ⊆ params) :
    ∃ h' ∈ params, t.root? h = t.root? h' := by
  induction hh with
  | top hmem => exact ⟨_, htop (List.mem_append_left _ hmem), rfl⟩
  | outer hmem => exact ⟨_, htop (List.mem_append_right _ hmem), rfl⟩
  | @member h h' p _ hp hmem ih =>
    obtain ⟨h'', hparam, hroot⟩ := ih
    refine ⟨h'', hparam, ?_⟩
    rw [hmembers h p hp h' hmem, ← hroot, Tree.root?, hp]
    rfl
  | note _ hp hmem _ => exact ⟨_, hannotations _ _ hp hmem, rfl⟩

end

/-! ### Trees of images -/

/-- What an image is linked from: its tree and its techniques, with no sources attached. -/
def start (im : Image) : Linking :=
  let ((top, techniques), growth) := (Growth.addImage im).run {}
  ⟨⟨growth.nodes, top, growth.initial⟩, techniques, .empty, 0⟩

/-- The slots that wait for objects when an image is linked. -/
def pendingOf (im : Image) : Array Pending := ((Growth.addImage im).run {}).2.pending

/-- The tree of an image is laid out. -/
theorem laid_start (im : Image) : Laid (start im).tree (start im).techniques := by
  obtain ⟨params, hneeds, hgrown⟩ := Growth.adds_addImage im {}
  let t := (start im).tree
  let techniques := (start im).techniques
  have howned : ∀ h ∈ params ++ (allStates t techniques).map (·.param), ∃ r, t.root? h = some r :=
    fun h hh => (hgrown.owned h hh).imp fun _ hr => hr.1
  have hnodup : ((params ++ (allStates t techniques).map (·.param)).map t.root?).Nodup :=
    hgrown.nodup
  have hmembers : ∀ h p, t.node? h = some p → ∀ h' ∈ p.members, t.root? h' = some p.root :=
    fun h p hp => hgrown.members h.index p (Nat.zero_le _) hp
  have hparameter : ∀ h, IsParameter t techniques h → ∃ h' ∈ params, t.root? h = t.root? h' :=
    fun h hh => hh.exists_root? hneeds hmembers fun h p hp =>
      hgrown.annotations h.index p (Nat.zero_le _) hp
  rw [List.map_append, List.nodup_append, List.map_map] at hnodup
  obtain ⟨hparams, hstates, hdisjoint⟩ := hnodup
  exact {
    root_lt := fun h r hr => by
      obtain ⟨p, hp, rfl⟩ := Option.map_eq_some_iff.1 hr
      exact ((hgrown.root h.index p (Nat.zero_le _) hp).resolve_left id).2
    members := hmembers
    owned := fun h hh => by
      obtain ⟨h', hmem, hroot⟩ := hparameter h hh
      rw [hroot]
      exact howned h' (List.mem_append_left _ hmem)
    stateOwned := fun s hs => howned _ (List.mem_append_right _ (List.mem_map_of_mem hs))
    top := fun h hh h' hh' heq => List.inj_on_of_nodup_map hparams
      (hneeds (List.mem_append_left _ hh)) (hneeds (List.mem_append_left _ hh')) heq
    states := hstates
    apart := fun h hh s hs heq => by
      obtain ⟨h', hmem, hroot⟩ := hparameter h hh
      exact hdisjoint _ (List.mem_map_of_mem hmem) _ (List.mem_map_of_mem hs)
        (hroot.symm.trans heq) }

/-- Before sources are attached every state has its own value. -/
lemma source_start {im : Image} {s : StateEntry}
    (hs : s ∈ allStates (start im).tree (start im).techniques) : s.source = .constant := by
  obtain ⟨params, -, hgrown⟩ := Growth.adds_addImage im {}
  exact hgrown.constant s hs

/-! ### Skeletons -/

/-- The numbers of words and of object slots of a root. -/
def extent (c : Contents) : Nat × Nat := (c.words.size, c.objects.size)

/-- From one linking to another only the sources of states and the values of roots changed. -/
structure SameSkeleton (l l' : Linking) : Prop where
  nodes : ∀ h, (l'.tree.node? h).map Parameter.bare = (l.tree.node? h).map Parameter.bare
  top : l'.tree.top = l.tree.top
  extents : l'.tree.initial.map extent = l.tree.initial.map extent
  annotations : annotationsOf l'.techniques = annotationsOf l.techniques
  params : (allStates l'.tree l'.techniques).map (·.param) =
    (allStates l.tree l.techniques).map (·.param)

namespace SameSkeleton

variable {l l' l'' : Linking}

lemma refl (l : Linking) : SameSkeleton l l := ⟨fun _ => rfl, rfl, rfl, rfl, rfl⟩

lemma symm (h : SameSkeleton l l') : SameSkeleton l' l :=
  ⟨fun i => (h.nodes i).symm, h.top.symm, h.extents.symm, h.annotations.symm, h.params.symm⟩

lemma trans (h : SameSkeleton l l') (h' : SameSkeleton l' l'') : SameSkeleton l l'' :=
  ⟨fun i => (h'.nodes i).trans (h.nodes i), h'.top.trans h.top,
    h'.extents.trans h.extents, h'.annotations.trans h.annotations,
    h'.params.trans h.params⟩

lemma size_initial (h : SameSkeleton l l') : l'.tree.initial.size = l.tree.initial.size := by
  have hsize := congrArg Array.size h.extents
  rwa [Array.size_map, Array.size_map] at hsize

lemma exists_node? (h : SameSkeleton l l') {i : Handle} {p : Parameter}
    (hp : l.tree.node? i = some p) :
    ∃ p', l'.tree.node? i = some p' ∧ p'.node = p.node ∧ p'.flags = p.flags ∧
      p'.root = p.root ∧ p'.members = p.members ∧ p'.annotations = p.annotations ∧
      p'.top = p.top := by
  obtain ⟨p', hp', hbare⟩ := Option.map_eq_some_iff.1 ((h.nodes i).trans (congrArg _ hp))
  simp only [Parameter.bare, Parameter.mk.injEq] at hbare
  obtain ⟨hnode, hmembers, hannotations, hflags, -, hroot, htop, -⟩ := hbare
  exact ⟨p', hp', hnode, hflags, hroot, hmembers, hannotations, htop⟩

lemma root? (h : SameSkeleton l l') (i : Handle) : l'.tree.root? i = l.tree.root? i := by
  have hroot := congrArg (Option.map Parameter.root) (h.nodes i)
  rwa [Option.map_map, Option.map_map] at hroot

lemma isParameter (h : SameSkeleton l l') {i : Handle}
    (hi : IsParameter l.tree l.techniques i) : IsParameter l'.tree l'.techniques i := by
  induction hi with
  | top hmem => exact .top (h.top ▸ hmem)
  | outer hmem => exact .outer (h.annotations ▸ hmem)
  | member _ hp hmem ih =>
    obtain ⟨p', hp', -, -, -, hmembers, -⟩ := h.exists_node? hp
    exact ih.member hp' (hmembers ▸ hmem)
  | note _ hp hmem ih =>
    obtain ⟨p', hp', -, -, -, -, hannotations, -⟩ := h.exists_node? hp
    exact ih.note hp' (hannotations ▸ hmem)

/-- Trees with the skeleton of one that is laid out are laid out. -/
lemma laid (h : SameSkeleton l l') (hl : Laid l.tree l.techniques) :
    Laid l'.tree l'.techniques := by
  have hroots : (allStates l'.tree l'.techniques).map (fun s => l'.tree.root? s.param) =
      (allStates l.tree l.techniques).map fun s => l.tree.root? s.param := by
    have hparams := congrArg (List.map l.tree.root?) h.params
    rw [List.map_map, List.map_map] at hparams
    rw [funext h.root?]
    exact hparams
  have hparam : ∀ s' ∈ allStates l'.tree l'.techniques,
      ∃ s ∈ allStates l.tree l.techniques, s.param = s'.param := fun s' hs' => by
    have hmem := List.mem_map_of_mem (f := StateEntry.param) hs'
    rw [h.params] at hmem
    exact List.mem_map.1 hmem
  refine ⟨fun i r hr => ?_, fun i p' hp' i' hi' => ?_, fun i hi => ?_, fun s' hs' => ?_, ?_, ?_,
    fun i hi s' hs' => ?_⟩
  · rw [h.size_initial]
    exact hl.root_lt i r (h.root? i ▸ hr)
  · obtain ⟨p, hp, -, -, hroot, hmembers, -⟩ := h.symm.exists_node? hp'
    rw [h.root?, ← hroot]
    exact hl.members i p hp i' (hmembers ▸ hi')
  · rw [h.root?]
    exact hl.owned i (h.symm.isParameter hi)
  · obtain ⟨s, hs, hsame⟩ := hparam s' hs'
    rw [h.root?, ← hsame]
    exact hl.stateOwned s hs
  · rw [h.top, funext h.root?]
    exact hl.top
  · rw [hroots]
    exact hl.states
  · obtain ⟨s, hs, hsame⟩ := hparam s' hs'
    rw [h.root?, h.root?, ← hsame]
    exact hl.apart i (h.symm.isParameter hi) s hs

end SameSkeleton

end Link

end ShaderEffect
