import ShaderEffect.Proofs.Link.Parts

/-!
# Parameters that belong to themselves

Top-level parameters and annotations are added as roots, so each of them belongs to itself
(`Link.OwnHeads`) and is a member of no node. Every step of adding an image keeps this for the
annotations noted so far (`Growth.KeepsNotes`).
-/

namespace ShaderEffect

namespace Growth

variable {g g' : Growth} {params : List Handle} {entries : List StateEntry} {R : Nat → Prop}

/-- The annotations of all nodes belong to themselves. -/
def OwnsNotes (g : Growth) : Prop :=
  ∀ h p, g.tree.node? h = some p → ∀ h' ∈ p.annotations, g.tree.IsHead h'

/-- After a step annotations belong to themselves if they did before, and so do the given
parameters. -/
def KeepsNotes {α : Type} (step : Step α) (heads : α → List Handle) : Prop :=
  ∀ g, g.OwnsNotes → (step g).2.OwnsNotes ∧ ∀ h ∈ heads (step g).1, (step g).2.tree.IsHead h

/-- What was added has no annotations but the parameters that were. -/
lemma Grown.ownsNotes (hg : Grown g params entries R g') (h : g.OwnsNotes)
    (hparams : ∀ h ∈ params, g'.tree.IsHead h) : g'.OwnsNotes := by
  intro i p hp h' hh'
  rcases hg.node?_or_le hp with hold | hnew
  · exact hg.isHead (h i p hold h' hh')
  · exact hparams h' (hg.annotations i.index p hnew hp h' hh')

lemma keepsNotes_mapM {α β : Type} {f : α → Step β} {needs heads : β → List Handle}
    {entries : β → List StateEntry} {as : List α} (hf : ∀ a ∈ as, Adds (f a) needs entries)
    (hkeeps : ∀ a ∈ as, KeepsNotes (f a) heads) : KeepsNotes (as.mapM f) (·.flatMap heads) := by
  induction as with
  | nil => exact fun g h => ⟨h, fun i hi => by cases hi⟩
  | cons a rest ih =>
    intro g h
    have hrest := fun b (hb : b ∈ rest) => List.mem_cons_of_mem a hb
    obtain ⟨hfirst, hheads⟩ := hkeeps a List.mem_cons_self g h
    obtain ⟨howns, hheads'⟩ := ih (fun b hb => hf b (hrest b hb))
      (fun b hb => hkeeps b (hrest b hb)) (f a g).2 hfirst
    obtain ⟨params, -, hgrown⟩ := adds_mapM (fun b hb => hf b (hrest b hb)) (f a g).2
    rw [List.mapM_cons]
    refine ⟨howns, fun i hi => ?_⟩
    rcases List.mem_append.1 hi with hi | hi
    · exact hgrown.isHead (hheads i hi)
    · exact hheads' i hi

lemma isHead_addRoot (flags : UInt32) (node : Node) (g : Growth) :
    (addRoot flags node g).2.tree.IsHead (addRoot flags node g).1 := by
  obtain ⟨p, hp, -, htop⟩ := (makesNode_addNode (P := fun _ => True) g.initial.size none flags node
    {} (newRoot g).2 {} fun _ _ _ => trivial).head
  rw [addRoot_handle]
  exact ⟨p, hp, htop⟩

lemma keepsNotes_addRoot (flags : UInt32) (node : Node) :
    KeepsNotes (addRoot flags node) fun h => [h] := by
  intro g h
  have hhead : ∀ i ∈ [(addRoot flags node g).1], (addRoot flags node g).2.tree.IsHead i :=
    List.forall_mem_singleton.2 (isHead_addRoot flags node g)
  refine ⟨(grown_addRoot flags node g).ownsNotes h ?_, hhead⟩
  rwa [← addRoot_handle flags node g]

lemma keepsNotes_addAnnotations (notes : List Node) : KeepsNotes (addAnnotations notes) id := by
  intro g h
  obtain ⟨howns, hheads⟩ := keepsNotes_mapM (fun n (_ : n ∈ notes) => adds_addRoot annotationFlag n)
    (fun n _ => keepsNotes_addRoot annotationFlag n) g h
  exact ⟨howns, fun i hi => hheads i (List.mem_flatMap.2 ⟨i, hi, List.mem_singleton_self i⟩)⟩

lemma OwnsNotes.annotate (hg : g.OwnsNotes) (h : Handle) {annotations : List Handle}
    (hnotes : ∀ i ∈ annotations, g.tree.IsHead i) : (g.annotate h annotations).OwnsNotes := by
  intro i p hp i' hi'
  refine isHead_annotate h annotations ?_
  rcases eq_or_nodes_of_annotate hp with hp | ⟨q, -, rfl⟩
  · exact hg i p hp i' hi'
  · exact hnotes i' hi'

lemma keepsNotes_addParameter (r : ParameterRecord) :
    KeepsNotes (addParameter r) fun h => [h] := by
  intro g h
  let flags := r.flags &&& flagMask
  obtain ⟨hroot, -⟩ := keepsNotes_addRoot flags r.node g h
  obtain ⟨howns, hnotes⟩ := keepsNotes_addAnnotations r.annotations _ hroot
  obtain ⟨params, -, hgrown⟩ := adds_addAnnotations r.annotations (addRoot flags r.node g).2
  have hhead := hgrown.isHead (isHead_addRoot flags r.node g)
  exact ⟨howns.annotate _ hnotes, List.forall_mem_singleton.2 (isHead_annotate _ _ hhead)⟩

lemma keepsNotes_addPass (p : PassRecord) : KeepsNotes (addPass p) fun _ => [] := by
  intro g h
  obtain ⟨howns, -⟩ := keepsNotes_addAnnotations p.annotations g h
  exact ⟨(grown_addStates p.states (addAnnotations p.annotations g).2).ownsNotes howns nofun, nofun⟩

lemma keepsNotes_addTechnique (t : TechniqueRecord) :
    KeepsNotes (addTechnique t) fun _ => [] := by
  intro g h
  obtain ⟨howns, -⟩ := keepsNotes_addAnnotations t.annotations g h
  exact ⟨(keepsNotes_mapM (fun p (_ : p ∈ t.passes) => adds_addPass p)
    (fun p _ => keepsNotes_addPass p) (addAnnotations t.annotations g).2 howns).1, nofun⟩

/-- To add an image keeps that annotations belong to themselves, and so do its parameters. -/
theorem keepsNotes_addImage (im : Image) : KeepsNotes (addImage im) Prod.fst := by
  intro g h
  obtain ⟨howns, hheads⟩ := keepsNotes_mapM (fun r (_ : r ∈ im.parameters) => adds_addParameter r)
    (fun r _ => keepsNotes_addParameter r) g h
  obtain ⟨params, -, hgrown⟩ := (adds_mapM fun t (_ : t ∈ im.techniques) => adds_addTechnique t)
    (im.parameters.mapM addParameter g).2
  obtain ⟨howns', -⟩ := keepsNotes_mapM (fun t (_ : t ∈ im.techniques) => adds_addTechnique t)
    (fun t _ => keepsNotes_addTechnique t) _ howns
  exact ⟨howns', fun i hi => hgrown.isHead
    (hheads i (List.mem_flatMap.2 ⟨i, hi, List.mem_singleton_self i⟩))⟩

end Growth

namespace Link

variable {im : Image} {l l' : Linking}

/-- Top-level parameters and annotations belong to themselves. -/
structure OwnHeads (t : Tree) : Prop where
  top : ∀ h ∈ t.top, t.IsHead h
  notes : ∀ h p, t.node? h = some p → ∀ h' ∈ p.annotations, t.IsHead h'

lemma ownHeads_start (im : Image) : OwnHeads (start im).tree := by
  obtain ⟨howns, htop⟩ := Growth.keepsNotes_addImage im {} fun h p hp => by cases hp
  exact ⟨htop, howns⟩

lemma SameSkeleton.ownHeads (h : SameSkeleton l l') (hl : OwnHeads l.tree) : OwnHeads l'.tree := by
  have hhead : ∀ i, l.tree.IsHead i → l'.tree.IsHead i := by
    rintro i ⟨p, hp, htop⟩
    obtain ⟨p', hp', -, -, -, -, -, htop'⟩ := h.exists_node? hp
    exact ⟨p', hp', htop'.trans htop⟩
  refine ⟨fun i hi => hhead i (hl.top i (h.top ▸ hi)), fun i p' hp' i' hi' => ?_⟩
  obtain ⟨p, hp, -, -, -, -, hannotations, -⟩ := h.symm.exists_node? hp'
  exact hhead i' (hl.notes i p hp i' (hannotations ▸ hi'))

theorem IsLinkingOf.ownHeads (hl : IsLinkingOf im l) : OwnHeads l.tree :=
  hl.skeleton.ownHeads (ownHeads_start im)

/-- A node that belongs to itself is a member of none. -/
lemma IsLinkingOf.head_not_mem (him : im.WellFormed) (hl : IsLinkingOf im l) {h h' : Handle}
    (hh : l.tree.IsHead h) {p' : Parameter} (hp' : l.tree.node? h' = some p') :
    h ∉ p'.members := by
  obtain ⟨p, hp, htop⟩ := hh
  exact htop ▸ hl.top_not_mem him hp hp'

lemma IsTreeOf.exists_linking {t : Tree} (ht : IsTreeOf im t) :
    ∃ l, IsLinkingOf im l ∧ l.tree = t := by
  cases ht with
  | laid => exact ⟨_, .laid, rfl⟩
  | linked hlink => exact ⟨_, .linked hlink, rfl⟩

end Link

end ShaderEffect
