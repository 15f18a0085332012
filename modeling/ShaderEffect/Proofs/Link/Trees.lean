import ShaderEffect.Proofs.Link.Standing
import ShaderEffect.Proofs.Link.Tiling

/-!
# Trees of images

An image is added parameter by parameter and technique by technique, and each of these steps only
adds things that have roots of their own (`Growth.Extends`). So every root of a linked tree has room
for its leaves, nests, and keeps to one node: top-level parameters and annotations are such nodes.
-/

namespace ShaderEffect

open Growth (annotationsOf)

namespace Growth

variable {g g' g'' : Growth}

/-- From one tree to another were added only things that have roots of their own. -/
structure Extends (g g' : Growth) : Prop where
  grown : ∃ params entries, Grown g params entries (fun _ => False) g'
  founds : Founds g g'
  heads : Heads g g'
  raises : Raises (fun _ => False) g g'

/-- The node at a handle is a root made from a value. -/
structure RootOf (g : Growth) (h : Handle) (n : Node) (p : Parameter) : Prop where
  node? : g.tree.node? h = some p
  node : p.node = n
  lays : g.tree.Lays p.root n.tiles
  nests : g.tree.Nests 0 p.root p.flags p.top [h]

namespace Extends

lemma refl (g : Growth) : Extends g g :=
  ⟨⟨[], [], .refl g _⟩, .refl g, .refl g, .refl _ g⟩

lemma trans (h : Extends g g') (h' : Extends g' g'') : Extends g g'' := by
  obtain ⟨params, entries, hgrown⟩ := h.grown
  obtain ⟨params', entries', hgrown'⟩ := h'.grown
  exact ⟨⟨_, _, hgrown.trans hgrown'⟩, h.founds.trans hgrown hgrown' h'.founds fun _ h => h.elim,
    h.heads.trans hgrown hgrown' h'.heads (fun _ h => h.elim) fun _ h => h.elim,
    h.raises.trans hgrown hgrown' h'.raises fun _ h => h.elim⟩

lemma rooted (h : Extends g g') (hg : g.Rooted) : g'.Rooted := by
  obtain ⟨params, entries, hgrown⟩ := h.grown
  exact hg.grown hgrown fun _ h => h.elim

lemma rootOf (h : Extends g g') {handle : Handle} {n : Node} {p : Parameter}
    (hn : g.RootOf handle n p) : g'.RootOf handle n p := by
  obtain ⟨params, entries, hgrown⟩ := h.grown
  obtain ⟨hp, hnode, hlays, hnests⟩ := hn
  obtain ⟨c, hc, -⟩ := hlays.size
  refine ⟨hgrown.node?_of_some hp, hnode, lays_grown hlays hgrown h.founds id,
    nests_grown hnests hgrown ?_ id⟩
  exact (Array.getElem?_eq_some_iff.1 hc).1

lemma isNote (h : Extends g g') {handle : Handle} (hnote : g.IsNote handle) :
    g'.IsNote handle := by
  obtain ⟨params, entries, hgrown⟩ := h.grown
  exact hnote.grown hgrown

end Extends

/-- To take steps one after the other extends a tree if each step does, and what each step has made
stays. -/
lemma extends_mapM {α β : Type} {f : α → Step β} {M : α → β → Growth → Prop} {as : List α}
    (hstays : ∀ a b g g', Extends g g' → M a b g → M a b g')
    (hf : ∀ a ∈ as, ∀ g : Growth, g.Rooted → Extends g (f a g).2 ∧ M a (f a g).1 (f a g).2)
    (g : Growth) (hg : g.Rooted) :
    Extends g (as.mapM f g).2 ∧ ∀ b ∈ (as.mapM f g).1, ∃ a ∈ as, M a b (as.mapM f g).2 := by
  induction as generalizing g with
  | nil => exact ⟨.refl g, fun b hb => by cases hb⟩
  | cons a rest ih =>
    obtain ⟨hfirst, hmade⟩ := hf a List.mem_cons_self g hg
    obtain ⟨hrest, hmade'⟩ := ih (fun b hb => hf b (List.mem_cons_of_mem _ hb)) (f a g).2
      (hfirst.rooted hg)
    rw [List.mapM_cons]
    refine ⟨hfirst.trans hrest, fun b hb => ?_⟩
    rcases List.mem_cons.1 hb with rfl | hb
    · exact ⟨a, List.mem_cons_self, hstays _ _ _ _ hrest hmade⟩
    · obtain ⟨a', ha', hmade'⟩ := hmade' b hb
      exact ⟨a', List.mem_cons_of_mem _ ha', hmade'⟩

lemma extends_addRoot (flags : UInt32) (node : Node) (g : Growth) (hg : g.Rooted) :
    Extends g (addRoot flags node g).2 ∧
      ∃ p, (addRoot flags node g).2.RootOf (addRoot flags node g).1 node p ∧ p.flags = flags := by
  have hgrown := grown_addNode g.initial.size none flags node {} (newRoot g).2
  have hadds := addsNode_addNode g.initial.size none flags node {} (newRoot g).2
    (rooted_newRoot hg) (lt_size_newRoot g)
  have hnests := nestsOn_addNode g.initial.size none flags node {} (newRoot g).2
    (lt_size_newRoot g)
  have hstands := standsOn_addNode g.initial.size none flags node {} (newRoot g).2
    (lt_size_newRoot g)
  obtain ⟨hfounds, hlays⟩ := Founds.newRoot hg hgrown.1 hadds.founds hadds.lays
  obtain ⟨hheads, hnested⟩ := Heads.newRoot hnests.1 hnests.2
  have hextends : Extends g (addRoot flags node g).2 :=
    ⟨⟨_, _, grown_addRoot flags node g⟩, hfounds, hheads, hstands.newRoot hgrown.1⟩
  obtain ⟨p, hp, hnode, hroot⟩ := hadds.head
  have hflags : p.flags = flags := hnested.flags_eq ⟨g.nodes.size⟩ p (Nat.le_refl _) hp hroot
  have htop := hnested.top_eq ⟨g.nodes.size⟩ p (Nat.le_refl _) hp hroot
  -- No node that was there before is under the new root.
  have hnew : (addRoot flags node g).2.tree.Nests 0 g.initial.size flags p.top
      [⟨g.nodes.size⟩] := by
    rw [htop]
    refine hnested.congr (fun i p hp => ⟨p, hp, List.Subset.refl _⟩) fun i q _ hq hr => ?_
    refine ⟨?_, q, hq, hr, rfl, rfl, fun _ => rfl⟩
    by_contra hlt
    have hq' := ((grown_addRoot flags node g).node?_eq (Nat.lt_of_not_le hlt)).symm.trans hq
    have := hg q (Array.mem_toList_iff.2 (Array.mem_of_getElem? hq'))
    omega
  rw [addRoot_handle]
  exact ⟨hextends, p, ⟨hp, hnode, hroot ▸ hlays, by rw [hroot, hflags]; exact hnew⟩, hflags⟩

lemma extends_addAnnotations (notes : List Node) (g : Growth) (hg : g.Rooted) :
    Extends g (addAnnotations notes g).2 ∧
      ∀ h ∈ (addAnnotations notes g).1, (addAnnotations notes g).2.IsNote h := by
  obtain ⟨hextends, hmade⟩ := extends_mapM (M := fun (_ : Node) h g => g.IsNote h)
    (fun _ _ _ _ h hnote => h.isNote hnote) (fun n (_ : n ∈ notes) g hg => by
      obtain ⟨hextends, p, hroot, hflags⟩ := extends_addRoot annotationFlag n g hg
      exact ⟨hextends, p, hroot.node?, hflags⟩) g hg
  exact ⟨hextends, fun h hh => (hmade h hh).elim fun _ hn => hn.2⟩

section

variable (g) (h : Handle) (annotations : List Handle)

lemma node?_annotate (i : Handle) : (g.annotate h annotations).tree.node? i =
    if h.index = i.index then (g.tree.node? i).map fun p => { p with annotations }
    else g.tree.node? i :=
  nodes_annotate ..

/-- Annotations are all that is noted at a node. -/
lemma exists_node?_annotate {i : Handle} {p : Parameter} :
    g.tree.node? i = some p → ∃ p', (g.annotate h annotations).tree.node? i = some p' ∧
      p'.node = p.node ∧ p'.root = p.root ∧ p'.flags = p.flags ∧ p'.top = p.top ∧
      p'.members = p.members := by
  intro hp
  rw [node?_annotate, hp]
  split
  · exact ⟨_, rfl, rfl, rfl, rfl, rfl, rfl⟩
  · exact ⟨p, rfl, rfl, rfl, rfl, rfl, rfl⟩

variable {g}

lemma lays_annotate {r : Nat} {ls : List Tile} (hlays : g.tree.Lays r ls) :
    (g.annotate h annotations).tree.Lays r ls := by
  let note : Parameter → Parameter := fun p => { p with annotations }
  refine hlays.congr ?_ rfl
  rw [annotate, tree, tree, Array.toList_modify]
  exact Link.map_modify_eq (f := note) (fun _ => rfl) _ _

lemma nests_annotate {start r : Nat} {flags : UInt32} {top : Handle} {hs : List Handle}
    (hnests : g.tree.Nests start r flags top hs) :
    (g.annotate h annotations).tree.Nests start r flags top hs := by
  refine hnests.congr (fun i p hp => ?_) fun i p' hi hp' hr => ⟨hi, ?_⟩
  · obtain ⟨p', hp', -, -, -, -, hmembers⟩ := exists_node?_annotate g h annotations hp
    exact ⟨p', hp', by rw [hmembers]; exact List.Subset.refl _⟩
  · rcases eq_or_nodes_of_annotate hp' with hp | ⟨p, hp, rfl⟩
    · exact ⟨p', hp, hr, rfl, rfl, fun _ => rfl⟩
    · exact ⟨p, hp, hr, rfl, rfl, fun k => by cases k <;> rfl⟩

lemma isNote_annotate {i : Handle} (hi : g.IsNote i) : (g.annotate h annotations).IsNote i := by
  obtain ⟨p, hp, hflags⟩ := hi
  obtain ⟨p', hp', -, -, hflags', -⟩ := exists_node?_annotate g h annotations hp
  exact ⟨p', hp', hflags'.trans hflags⟩

variable {h annotations}

lemma heads_annotate (hheads : Heads g g') (hnotes : ∀ i ∈ annotations, g'.IsNote i) :
    Heads g (g'.annotate h annotations) where
  roots r hlow hhigh := by
    obtain ⟨flags, top, hnests⟩ := hheads.roots r hlow hhigh
    exact ⟨flags, top, nests_annotate h annotations hnests⟩
  notes i p hi hp i' hi' := by
    refine isNote_annotate h annotations ?_
    rcases eq_or_nodes_of_annotate hp with hp | ⟨q, -, rfl⟩
    · exact hheads.notes i p hi hp i' hi'
    · exact hnotes i' hi'

lemma raises_annotate {R : Nat → Prop} (hraises : Raises R g g') :
    Raises R g (g'.annotate h annotations) where
  raised hclean r hlow hhigh := by
    obtain ⟨n, i, stop, hstands, hcontents, hslots⟩ := hraises.raised hclean r hlow hhigh
    have hkept : ∀ j p, g'.tree.node? j = some p → ∃ p',
        (g'.annotate h annotations).tree.node? j = some p' ∧
          p'.bare = { p.bare with annotations := p'.annotations } := fun j p hp => by
      rw [node?_annotate, hp]
      split
      · exact ⟨_, rfl, rfl⟩
      · exact ⟨p, rfl, rfl⟩
    refine ⟨n, i, stop, hstands.congr (fun j p _ hp _ => hkept j p hp) ⟨fun j m _ hm => ?_,
      fun j r' _ hr' => ?_⟩, hcontents, hslots⟩
    · obtain ⟨p, hp, rfl⟩ := Option.map_eq_some_iff.1 hm
      obtain ⟨p', hp', hbare⟩ := hkept j p hp
      rw [Tree.value?, hp']
      exact congrArg some (show p'.bare.node = p.bare.node by rw [hbare])
    · obtain ⟨p, hp, rfl⟩ := Option.map_eq_some_iff.1 hr'
      obtain ⟨p', hp', hbare⟩ := hkept j p hp
      rw [Tree.root?, hp']
      exact congrArg some (show p'.bare.root = p.bare.root by rw [hbare])
  initial := hraises.initial
  waiting := hraises.waiting

end

lemma extends_addParameter (r : ParameterRecord) (g : Growth) (hg : g.Rooted) :
    Extends g (addParameter r g).2 ∧
      ∃ p, (addParameter r g).2.RootOf (addParameter r g).1 r.node p := by
  let flags := r.flags &&& flagMask
  obtain ⟨hroot, p, hmade, -⟩ := extends_addRoot flags r.node g hg
  obtain ⟨hnotes, hflagged⟩ :=
    extends_addAnnotations r.annotations (addRoot flags r.node g).2 (hroot.rooted hg)
  have hboth := hroot.trans hnotes
  -- At last the annotations are noted at the node.
  obtain ⟨handle, hhandle⟩ : ∃ handle, handle = (addRoot flags r.node g).1 := ⟨_, rfl⟩
  obtain ⟨annotations, hannotations⟩ : ∃ annotations,
      annotations = (addAnnotations r.annotations (addRoot flags r.node g).2).1 := ⟨_, rfl⟩
  have hadd : (addParameter r g).2 =
      (addAnnotations r.annotations (addRoot flags r.node g).2).2.annotate handle annotations := by
    rw [hhandle, hannotations]
    rfl
  obtain ⟨params, -, hgrown⟩ := adds_addParameter r g
  have hresult : (addParameter r g).1 = handle := hhandle.symm
  rw [← hannotations] at hflagged
  obtain ⟨hp, hvalue, hlays, hnests⟩ := hnotes.rootOf hmade
  rw [← hhandle] at hp hnests
  rw [hresult]
  rw [hadd] at hgrown ⊢
  generalize (addAnnotations r.annotations (addRoot flags r.node g).2).2 = g' at *
  refine ⟨⟨⟨params, _, hgrown⟩, ⟨hboth.founds.initial, fun r' hlow hhigh => ?_⟩,
    heads_annotate hboth.heads hflagged, raises_annotate hboth.raises⟩, ?_⟩
  · obtain ⟨ls, hlays⟩ := hboth.founds.laid r' hlow hhigh
    exact ⟨ls, lays_annotate _ _ hlays⟩
  · obtain ⟨p', hp', hnode, hroot', hflags, htop, -⟩ :=
      exists_node?_annotate g' handle annotations hp
    refine ⟨p', hp', hnode.trans hvalue, ?_, ?_⟩
    · rw [hroot']
      exact lays_annotate _ _ hlays
    · rw [hroot', hflags, htop]
      exact nests_annotate _ _ hnests

lemma extends_addPass (p : PassRecord) (g : Growth) (hg : g.Rooted) :
    Extends g (addPass p g).2 ∧
      ∀ h ∈ (addPass p g).1.annotations, (addPass p g).2.IsNote h := by
  obtain ⟨hnotes, hflagged⟩ := extends_addAnnotations p.annotations g hg
  have hstates : Extends (addAnnotations p.annotations g).2 (addPass p g).2 :=
    ⟨⟨_, _, grown_addStates p.states _⟩, founds_addStates p.states _ (hnotes.rooted hg),
      heads_addStates p.states _, (raises_addStates p.states _).1⟩
  exact ⟨hnotes.trans hstates, fun h hh => hstates.isNote (hflagged h hh)⟩

/-- The annotations of a technique and of its passes. -/
def notesOf (t : Technique) : List Handle := t.annotations ++ t.passes.flatMap (·.annotations)

lemma extends_addTechnique (t : TechniqueRecord) (g : Growth) (hg : g.Rooted) :
    Extends g (addTechnique t g).2 ∧
      ∀ h ∈ notesOf (addTechnique t g).1, (addTechnique t g).2.IsNote h := by
  obtain ⟨hnotes, hflagged⟩ := extends_addAnnotations t.annotations g hg
  obtain ⟨hpasses, hmade⟩ := extends_mapM
    (M := fun (_ : PassRecord) (p : Pass) g => ∀ h ∈ p.annotations, g.IsNote h)
    (fun _ _ _ _ h hnotes i hi => h.isNote (hnotes i hi))
    (fun (p : PassRecord) (_ : p ∈ t.passes) g hg => extends_addPass p g hg)
    (addAnnotations t.annotations g).2 (hnotes.rooted hg)
  refine ⟨hnotes.trans hpasses, fun h hh => ?_⟩
  rcases List.mem_append.1 hh with hh | hh
  · exact hpasses.isNote (hflagged h hh)
  · obtain ⟨pass, hpass, hh⟩ := List.mem_flatMap.1 hh
    obtain ⟨p, -, hmade⟩ := hmade pass hpass
    exact hmade h hh

/-- An image that is added has room for all its roots, its top-level parameters are roots made
from the values of the image, and its annotations are flagged. -/
theorem extends_addImage (im : Image) (g : Growth) (hg : g.Rooted) :
    Extends g (addImage im g).2 ∧
      (∀ h ∈ (addImage im g).1.1, ∃ r ∈ im.parameters, ∃ p,
        (addImage im g).2.RootOf h r.node p) ∧
      ∀ h ∈ annotationsOf (addImage im g).1.2, (addImage im g).2.IsNote h := by
  obtain ⟨hparameters, hmade⟩ := extends_mapM
    (M := fun (r : ParameterRecord) h g => ∃ p, g.RootOf h r.node p)
    (fun _ _ _ _ h hmade => hmade.imp fun _ => h.rootOf)
    (fun r (_ : r ∈ im.parameters) g hg => extends_addParameter r g hg) g hg
  obtain ⟨htechniques, hflagged⟩ := extends_mapM
    (M := fun (_ : TechniqueRecord) (t : Technique) g => ∀ h ∈ notesOf t, g.IsNote h)
    (fun _ _ _ _ h hnotes i hi => h.isNote (hnotes i hi))
    (fun (t : TechniqueRecord) (_ : t ∈ im.techniques) g hg => extends_addTechnique t g hg)
    (im.parameters.mapM addParameter g).2 (hparameters.rooted hg)
  refine ⟨hparameters.trans htechniques, fun h hh => ?_, fun h hh => ?_⟩
  · obtain ⟨r, hr, p, hroot⟩ := hmade h hh
    exact ⟨r, hr, p, htechniques.rootOf hroot⟩
  · obtain ⟨t, ht, hh⟩ := List.mem_flatMap.1 hh
    obtain ⟨-, -, hmade⟩ := hflagged t ht
    exact hmade h hh

end Growth

namespace Link

/-- What a linked tree keeps under its roots: each has room for some leaves, and top-level
parameters for those of the values they were made from. -/
structure Tiled (im : Image) (t : Tree) : Prop where
  roots : ∀ r < t.initial.size, ∃ ls, t.Lays r ls
  top : ∀ h ∈ t.top, ∃ r ∈ im.parameters, ∃ p, t.node? h = some p ∧ p.node = r.node ∧
    t.Lays p.root r.node.tiles

/-- The shapes of a top-level parameter say what is under its root. -/
lemma Tiled.lays_of_mem_top {im : Image} {t : Tree} (ht : Tiled im t) {stored : Bytes}
    (hdecode : Image.decode stored = .ok im) {h : Handle} (hh : h ∈ t.top) {p : Parameter}
    (hp : t.node? h = some p) : t.Lays p.root (p.node.shapes.filterMap NodeShape.tile?) := by
  obtain ⟨r, hr, q, hq, hnode, hlays⟩ := ht.top h hh
  obtain rfl : q = p := Option.some.inj (hq.symm.trans hp)
  rw [hnode, ← Node.tiles_eq_filterMap_shapes r.node {} (Image.sound_of_mem_parameters hdecode hr)]
  exact hlays

lemma tiled_start (im : Image) : Tiled im (start im).tree := by
  obtain ⟨hextends, htop, -⟩ := Growth.extends_addImage im {} fun p hp => by cases hp
  have hlays : ∀ {r ls}, (Growth.addImage im {}).2.tree.Lays r ls → (start im).tree.Lays r ls :=
    fun h => ⟨h.size, h.leaves, h.stop_le⟩
  refine ⟨fun r hr => ?_, fun h hh => ?_⟩
  · obtain ⟨ls, hr⟩ := hextends.founds.laid r (Nat.zero_le r) hr
    exact ⟨ls, hlays hr⟩
  · obtain ⟨r, hr, p, hroot⟩ := htop h hh
    exact ⟨r, hr, p, hroot.node?, hroot.node, hlays hroot.lays⟩

/-- Linking keeps what is under the roots. -/
lemma SameSkeleton.lays {l l' : Linking} (h : SameSkeleton l l') {r : Nat} {ls : List Tile}
    (hl : l.tree.Lays r ls) : l'.tree.Lays r ls := by
  refine hl.congr ?_ h.extents
  refine List.ext_getElem? fun i => ?_
  have hbare := congrArg (Option.map Parameter.core) (h.nodes ⟨i⟩)
  rw [Option.map_map, Option.map_map] at hbare
  rw [List.getElem?_map, List.getElem?_map, Array.getElem?_toList, Array.getElem?_toList]
  exact hbare

lemma SameSkeleton.tiled {l l' : Linking} {im : Image} (h : SameSkeleton l l')
    (hl : Tiled im l.tree) : Tiled im l'.tree := by
  refine ⟨fun r hr => ?_, fun i hi => ?_⟩
  · obtain ⟨ls, hr⟩ := hl.roots r (h.size_initial ▸ hr)
    exact ⟨ls, h.lays hr⟩
  · obtain ⟨r, hr, p, hp, hnode, hp'⟩ := hl.top i (h.top ▸ hi)
    obtain ⟨q, hq, hnode', -, hroot, -⟩ := h.exists_node? hp
    exact ⟨r, hr, q, hq, hnode'.trans hnode, hroot ▸ h.lays hp'⟩

/-- The roots of linked images have room for their leaves. -/
theorem tiled_link {im : Image} {skip : List String} {nextObject : Nat} {l : Linking}
    (h : link im skip nextObject = .ok l) : Tiled im l.tree :=
  (attaches_link h).skeleton.tiled (tiled_start im)

/-! ### Nesting -/

/-- How linked trees nest: all nodes of a root are under the one they belong to, and all that is
under a top-level parameter has its root. Annotations are flagged as such. -/
structure Nested (t : Tree) (techniques : List Technique) : Prop where
  roots : ∀ r < t.initial.size, ∃ flags top, t.Nests 0 r flags top [top]
  top : ∀ h ∈ t.top, ∃ p, t.node? h = some p ∧ t.Nests 0 p.root p.flags p.top [h]
  notes : ∀ h p, t.node? h = some p → ∀ h' ∈ p.annotations,
    ∃ q, t.node? h' = some q ∧ q.flags = annotationFlag
  outer : ∀ h ∈ annotationsOf techniques, ∃ q, t.node? h = some q ∧ q.flags = annotationFlag

lemma nested_start (im : Image) : Nested (start im).tree (start im).techniques := by
  obtain ⟨hextends, htop, houter⟩ := Growth.extends_addImage im {} fun p hp => by cases hp
  have hnests : ∀ {r flags top h}, (Growth.addImage im {}).2.tree.Nests 0 r flags top [h] →
      (start im).tree.Nests 0 r flags top [h] := fun h =>
    h.congr (fun i p hp => ⟨p, hp, List.Subset.refl _⟩)
      fun i p hi hp hr => ⟨hi, p, hp, hr, rfl, rfl, fun _ => rfl⟩
  refine ⟨fun r hr => ?_, fun h hh => ?_, fun h p hp => ?_, houter⟩
  · obtain ⟨flags, top, hr⟩ := hextends.heads.roots r (Nat.zero_le r) hr
    exact ⟨flags, top, hnests hr⟩
  · obtain ⟨r, -, p, hroot⟩ := htop h hh
    exact ⟨p, hroot.node?, hnests hroot.nests⟩
  · exact hextends.heads.notes h p (Nat.zero_le _) hp

lemma SameSkeleton.nests {l l' : Linking} (h : SameSkeleton l l') {start r : Nat}
    {flags : UInt32} {top : Handle} {hs : List Handle} (hl : l.tree.Nests start r flags top hs) :
    l'.tree.Nests start r flags top hs := by
  refine hl.congr (fun i p hp => ?_) fun i p' hi hp' hr => ⟨hi, ?_⟩
  · obtain ⟨p', hp', -, -, -, hmembers, -⟩ := h.exists_node? hp
    exact ⟨p', hp', by rw [hmembers]; exact List.Subset.refl _⟩
  · obtain ⟨p, hp, hbare⟩ := Option.map_eq_some_iff.1 ((h.symm.nodes i).trans (congrArg _ hp'))
    simp only [Parameter.bare, Parameter.mk.injEq] at hbare
    obtain ⟨-, -, -, hflags, -, hroot, htop, hwords, hobjects, -⟩ := hbare
    exact ⟨p, hp, hroot.trans hr, hflags, htop, fun k => by cases k <;> assumption⟩

lemma SameSkeleton.nested {l l' : Linking} (h : SameSkeleton l l')
    (hl : Nested l.tree l.techniques) : Nested l'.tree l'.techniques := by
  have hnote : ∀ {i}, (∃ q, l.tree.node? i = some q ∧ q.flags = annotationFlag) →
      ∃ q, l'.tree.node? i = some q ∧ q.flags = annotationFlag := by
    rintro i ⟨q, hq, hflags⟩
    obtain ⟨q', hq', -, hflags', -⟩ := h.exists_node? hq
    exact ⟨q', hq', hflags'.trans hflags⟩
  refine ⟨fun r hr => ?_, fun i hi => ?_, fun i p' hp' i' hi' => ?_, fun i hi => ?_⟩
  · obtain ⟨flags, top, hr⟩ := hl.roots r (h.size_initial ▸ hr)
    exact ⟨flags, top, h.nests hr⟩
  · obtain ⟨p, hp, hnests⟩ := hl.top i (h.top ▸ hi)
    obtain ⟨p', hp', -, hflags, hroot, -, -, htop⟩ := h.exists_node? hp
    exact ⟨p', hp', by rw [hroot, hflags, htop]; exact h.nests hnests⟩
  · obtain ⟨p, hp, -, -, -, -, hannotations, -⟩ := h.symm.exists_node? hp'
    exact hnote (hl.notes i p hp i' (hannotations ▸ hi'))
  · exact hnote (hl.outer i (h.annotations ▸ hi))

/-- Linked trees nest. -/
theorem nested_link {im : Image} {skip : List String} {nextObject : Nat} {l : Linking}
    (h : link im skip nextObject = .ok l) : Nested l.tree l.techniques :=
  (attaches_link h).skeleton.nested (nested_start im)

end Link

end ShaderEffect
