import ShaderEffect.Proofs.Link.Trees

/-!
# What nodes are made from

Every node of a linked tree is made from a value of the image, and its members from the parts of
this value, in order. Slots wait for the objects that these values refer to, and nothing else is in
a block at first (`Growth.Makes`).
-/

namespace ShaderEffect

open Growth (statesOf)

namespace Tree

/-- A node that belongs to itself. -/
def IsHead (t : Tree) (h : Handle) : Prop := ∃ p, t.node? h = some p ∧ p.top = h

/-- A node is made from a value of which `P` holds, its members are made from the parts of the
value, and the values of its states belong to themselves. -/
structure MadeFrom (t : Tree) (P : Node → Prop) (p : Parameter) : Prop where
  value : P p.node
  members : p.members.map t.value? = p.node.children.map some
  states : ∀ s ∈ p.states, t.IsHead s.param

/-- A slot waits for the object that a node refers to. -/
structure Awaits (t : Tree) (q : Pending) (h : Handle) (p : Parameter) : Prop where
  node? : t.node? h = some p
  root : p.root = q.root
  node : ∃ d, p.node = .object d q.id
  objects : p.objects = ⟨q.slot, 1⟩

variable {t t' : Tree} {P : Node → Prop}

lemma MadeFrom.congr {p p' : Parameter} (hp : t.MadeFrom P p) (hnode : p'.node = p.node)
    (hmembers : p'.members = p.members) (hstates : p'.states = p.states)
    (hvalues : ∀ h n, t.value? h = some n → t'.value? h = some n)
    (hheads : ∀ h, t.IsHead h → t'.IsHead h) : t'.MadeFrom P p' := by
  refine ⟨hnode ▸ hp.value, ?_, fun s hs => hheads _ (hp.states s (hstates ▸ hs))⟩
  rw [hnode, hmembers, ← hp.members]
  refine List.map_congr_left fun h hh => ?_
  have hmem := List.mem_map_of_mem (f := t.value?) hh
  rw [hp.members] at hmem
  obtain ⟨n, -, hn⟩ := List.mem_map.1 hmem
  rw [← hn, hvalues h n hn.symm]

end Tree

namespace Contents

/-- No slot holds an object. -/
def Vacant (c : Contents) : Prop := ∀ (j : Nat) (o : EffectObject), c.objects[j]? ≠ some (some o)

lemma vacant_empty : Vacant {} := fun j o h => by simp at h

lemma Vacant.push {c : Contents} (h : c.Vacant) :
    Vacant { c with objects := c.objects.push none } := fun j o hj => by
  rw [Array.getElem?_push] at hj
  split at hj
  · cases hj
  · exact h j o hj

end Contents

namespace Growth

/-- From one tree to another were added nodes made from values of which `P` holds, slots that wait
for what these refer to, and roots without objects. -/
structure Makes (P : Node → Prop) (g g' : Growth) : Prop where
  nodes : ∀ i p, g.nodes.size ≤ i → g'.nodes[i]? = some p → g'.tree.MadeFrom P p
  pending : ∀ q ∈ g'.pending, q ∈ g.pending ∨
    ∃ h p, g.nodes.size ≤ h.index ∧ g'.tree.Awaits q h p
  vacant : (∀ c ∈ g.initial, c.Vacant) → ∀ c ∈ g'.initial, c.Vacant

variable {P : Node → Prop} {g g' g'' : Growth} {params params' : List Handle}
  {entries entries' : List StateEntry} {R S : Nat → Prop} {root : Nat} {node : Node}
  {top : Option Handle} {flags : UInt32} {members : List Handle} {before after : Contents}

/-! ### Nodes that stay -/

lemma Grown.isHead (hg : Grown g params entries R g') {h : Handle} (hh : g.tree.IsHead h) :
    g'.tree.IsHead h := by
  obtain ⟨p, hp, htop⟩ := hh
  exact ⟨p, hg.node?_of_some hp, htop⟩

lemma Grown.madeFrom (hg : Grown g params entries R g') {p : Parameter}
    (hp : g.tree.MadeFrom P p) : g'.tree.MadeFrom P p :=
  hp.congr rfl rfl rfl (fun _ _ => hg.value?) fun _ => hg.isHead

lemma Grown.awaits (hg : Grown g params entries R g') {q : Pending} {h : Handle} {p : Parameter}
    (hq : g.tree.Awaits q h p) : g'.tree.Awaits q h p :=
  { hq with node? := hg.node?_of_some hq.node? }

namespace Makes

lemma refl (g : Growth) : Makes P g g where
  nodes i p hi hp := by
    have hlt := (Array.getElem?_eq_some_iff.1 hp).1
    omega
  pending q hq := .inl hq
  vacant h := h

/-- What is made in two parts is made as a whole. -/
lemma trans (h : Makes P g g') (hg : Grown g params entries R g')
    (hg' : Grown g' params' entries' S g'') (h' : Makes P g' g'') : Makes P g g'' where
  nodes i p hi hp := by
    rcases hg'.nodes_or_le hp with hold | hnew
    · exact hg'.madeFrom (h.nodes i p hi hold)
    · exact h'.nodes i p hnew hp
  pending q hq := by
    rcases h'.pending q hq with hq | ⟨i, p, hi, hp⟩
    · rcases h.pending q hq with hq | ⟨i, p, hi, hp⟩
      · exact .inl hq
      · exact .inr ⟨i, p, hi, hg'.awaits hp⟩
    · exact .inr ⟨i, p, Nat.le_trans hg.size_nodes hi, hp⟩
  vacant hvacant := h'.vacant (h.vacant hvacant)

end Makes

/-! ### Nodes and roots -/

lemma isHead_finish (hg : Grown (reserve node root top flags g).2 params entries' R g')
    {h : Handle} (hh : g'.tree.IsHead h) :
    (finish ⟨g.nodes.size⟩ node members entries before after g').2.tree.IsHead h := by
  obtain ⟨p, hp, htop⟩ := hh
  obtain ⟨p', hp', -, -, -, htop', -⟩ := exists_kept_finish entries members before after hg hp
  exact ⟨p', hp', htop'.trans htop⟩

lemma madeFrom_finish (hg : Grown (reserve node root top flags g).2 params entries' R g')
    {p : Parameter} (hp : g'.tree.MadeFrom P p) :
    (finish ⟨g.nodes.size⟩ node members entries before after g').2.tree.MadeFrom P p :=
  hp.congr rfl rfl rfl (fun h n => (keepsFrom_finish hg 0).value? h n (Nat.zero_le _))
    fun _ => isHead_finish hg

/-- The place of a node is filled when its members are made. -/
lemma Makes.finish (hg : Grown (reserve node root top flags g).2 params entries' R g')
    (h : Makes P (reserve node root top flags g).2 g') (hP : P node)
    (hmembers : members.map g'.tree.value? = node.children.map some)
    (hstates : ∀ s ∈ entries, g'.tree.IsHead s.param) :
    Makes P g (finish ⟨g.nodes.size⟩ node members entries before after g').2 := by
  refine ⟨fun i p hi hp => ?_, fun w hw => ?_, h.vacant⟩
  · rcases eq_or_nodes_of_finish hg hi hp with ⟨-, rfl⟩ | ⟨hi, hp⟩
    · exact madeFrom_finish hg ⟨hP, hmembers, hstates⟩
    · exact madeFrom_finish hg (h.nodes i p hi hp)
  · refine (h.pending w hw).imp_right ?_
    rintro ⟨i, p, hi, hp⟩
    rw [size_nodes_reserve] at hi
    exact ⟨i, p, by omega, { hp with node? := (node?_finish_of_ne (by omega)).trans hp.node? }⟩

/-- A slot waits for the object of a node whose place is filled. -/
lemma Makes.object {d : Declaration} {id : UInt32}
    (hobjects : after.objects.size = before.objects.size + 1) (hP : P (.object d id)) :
    Makes P g (Growth.finish ⟨g.nodes.size⟩ (.object d id) [] [] before after
      (await root before.objects.size id (reserve (.object d id) root top flags g).2).2).2 := by
  let reserved := (reserve (.object d id) root top flags g).2
  let awaited := (await root before.objects.size id reserved).2
  have hgrown := grown_await root before.objects.size id reserved fun _ => False
  refine ⟨fun i p hi hp => ?_, fun w hw => ?_, fun h => h⟩
  · rcases eq_or_nodes_of_finish hgrown hi hp with ⟨-, rfl⟩ | ⟨hi, hp⟩
    · exact ⟨hP, rfl, fun s hs => by cases hs⟩
    · have hlt : i < awaited.nodes.size := (Array.getElem?_eq_some_iff.1 hp).1
      exact absurd hlt (Nat.not_lt.2 hi)
  · rcases Array.mem_push.1 hw with hw | rfl
    · exact .inl hw
    · refine .inr ⟨⟨g.nodes.size⟩, _, Nat.le_refl _, node?_finish_self [] [] before after hgrown,
        rfl, ⟨d, rfl⟩, ?_⟩
      rw [filled, hobjects, Nat.add_sub_cancel_left]

/-- A root is numbered, its node is added, and its contents are set. -/
lemma Makes.newRoot {contents : Contents} (h : Makes P (newRoot g).2 g')
    (hcontents : contents.Vacant) : Makes P g (setRoot g.initial.size contents g').2 where
  nodes i p hi hp := (h.nodes i p hi hp).congr rfl rfl rfl (fun _ _ h => h) fun _ h => h
  pending q hq := (h.pending q hq).imp_right fun ⟨i, p, hi, hp⟩ => ⟨i, p, hi, { hp with }⟩
  vacant hvacant c hc := by
    rcases Array.mem_or_eq_of_mem_setIfInBounds hc with hc | rfl
    · refine h.vacant (fun c hc => ?_) c hc
      rcases Array.mem_push.1 hc with hc | rfl
      · exact hvacant c hc
      · exact Contents.vacant_empty
    · exact hcontents

/-! ### Adding nodes -/

/-- From one tree to another a node was made from a value. -/
structure MakesNode (P : Node → Prop) (g : Growth) (top : Option Handle) (node : Node)
    (before after : Contents) (g' : Growth) : Prop where
  makes : Makes P g g'
  head : ∃ p, g'.tree.node? ⟨g.nodes.size⟩ = some p ∧ p.node = node ∧
    p.top = top.getD ⟨g.nodes.size⟩
  vacant : before.Vacant → after.Vacant

lemma Makes.filled (hg : Grown (reserve node root top flags g).2 params entries' R g')
    (h : Makes P (reserve node root top flags g).2 g') (hP : P node)
    (hmembers : members.map g'.tree.value? = node.children.map some)
    (hstates : ∀ s ∈ entries, g'.tree.IsHead s.param) (hvacant : before.Vacant → after.Vacant) :
    MakesNode P g top node before after
      (Growth.finish ⟨g.nodes.size⟩ node members entries before after g').2 :=
  ⟨h.finish hg hP hmembers hstates,
    ⟨_, node?_finish_self entries members before after hg, rfl, rfl⟩, hvacant⟩

mutual

lemma makesNode_addNode (root : Nat) (top : Option Handle) (flags : UInt32) (node : Node)
    (before : Contents) (g : Growth) (place : Place)
    (hP : ∀ n q, node.Contains place n q → P n) :
    MakesNode P g top node before (addNode root top flags node before g).1.2
      (addNode root top flags node before g).2 := by
  have hrefl : Grown (reserve node root top flags g).2 [] [] (fun _ => False)
      (reserve node root top flags g).2 := .refl _ _
  have hnode : P node := hP node place .self
  cases node with
  | array d elements =>
    have h := makes_addNodes root (top.getD ⟨g.nodes.size⟩) flags elements before
      (reserve (.array d elements) root top flags g).2 place
      fun e he n q hn => hP n q (.element he hn)
    have hgrown := grown_addNodes root (top.getD ⟨g.nodes.size⟩) flags elements before
      (reserve (.array d elements) root top flags g).2
    rw [addNode]
    exact h.1.filled hgrown.1 hnode h.2.1 (fun s hs => by cases hs) h.2.2
  | struct d fields =>
    have h := makes_addNodes root (top.getD ⟨g.nodes.size⟩) flags fields before
      (reserve (.struct d fields) root top flags g).2 place.member
      fun m hm n q hn => hP n q (.member hm hn)
    have hgrown := grown_addNodes root (top.getD ⟨g.nodes.size⟩) flags fields before
      (reserve (.struct d fields) root top flags g).2
    rw [addNode]
    exact h.1.filled hgrown.1 hnode h.2.1 (fun s hs => by cases hs) h.2.2
  | words d ws =>
    rw [addNode]
    exact Makes.filled hrefl (.refl _) hnode rfl (fun s hs => by cases hs) fun h => h
  | object d id =>
    let reserved := (reserve (.object d id) root top flags g).2
    have hawait := grown_await root before.objects.size id reserved fun _ => False
    rw [addNode]
    exact ⟨.object (Array.size_push ..) hnode,
      ⟨_, node?_finish_self [] [] before { before with objects := before.objects.push none } hawait,
        rfl, rfl⟩, Contents.Vacant.push⟩
  | sampler d states =>
    have h := makes_addStates states (reserve (.sampler d states) root top flags g).2 place.state
      fun s hs n q hn => hP n q (.state hs hn)
    have hgrown := grown_addStates states (reserve (.sampler d states) root top flags g).2
    rw [addNode]
    exact h.1.filled hgrown hnode rfl h.2 fun h => h
  | unsupported d =>
    rw [addNode]
    exact Makes.filled hrefl (.refl _) hnode rfl (fun s hs => by cases hs) fun h => h

lemma makes_addNodes (root : Nat) (top : Handle) (flags : UInt32) (nodes : List Node)
    (before : Contents) (g : Growth) (place : Place)
    (hP : ∀ m ∈ nodes, ∀ n q, m.Contains place n q → P n) :
    Makes P g (addNodes root top flags nodes before g).2 ∧
      (addNodes root top flags nodes before g).1.1.map
        (addNodes root top flags nodes before g).2.tree.value? = nodes.map some ∧
      (before.Vacant → (addNodes root top flags nodes before g).1.2.Vacant) := by
  cases nodes with
  | nil => exact ⟨.refl g, rfl, fun h => h⟩
  | cons node rest =>
    let added := addNode root (some top) flags node before g
    have hgrown := (grown_addNode root (some top) flags node before g).1
    have hgrown' := (grown_addNodes root top flags rest added.1.2 added.2).1
    obtain ⟨hfirst, ⟨p, hp, hnode, -⟩, hvacant⟩ :=
      makesNode_addNode root (some top) flags node before g place (hP node List.mem_cons_self)
    obtain ⟨hrest, hvalues, hvacant'⟩ := makes_addNodes root top flags rest added.1.2 added.2 place
      fun m hm => hP m (List.mem_cons_of_mem _ hm)
    rw [← addNode_handle root (some top) flags node before g] at hp
    rw [addNodes]
    refine ⟨hfirst.trans hgrown hgrown' hrest, ?_, hvacant' ∘ hvacant⟩
    have hvalue : (addNodes root top flags rest added.1.2 added.2).2.tree.value? added.1.1 =
        some node := hnode ▸ hgrown'.value? (Tree.value?_of_node? hp)
    exact congrArg₂ List.cons hvalue hvalues

lemma makes_addStates (states : List (Assignment Node)) (g : Growth) (place : Place)
    (hP : ∀ s ∈ states, ∀ n q, s.value.Contains place n q → P n) :
    Makes P g (addStates states g).2 ∧
      ∀ s ∈ (addStates states g).1, (addStates states g).2.tree.IsHead s.param := by
  cases states with
  | nil => exact ⟨.refl g, fun s hs => by cases hs⟩
  | cons state rest =>
    obtain ⟨operation, index, value⟩ := state
    let added := addNode g.initial.size none 0 value {} (newRoot g).2
    have hvalue := grown_addNode g.initial.size none 0 value {} (newRoot g).2
    have hentry := hvalue.1.entry operation index added.1.2 hvalue.2
    have hgrown := grown_addStates rest (setRoot g.initial.size added.1.2 added.2).2
    obtain ⟨hmakes, ⟨p, hp, -, htop⟩, hvacant⟩ := makesNode_addNode g.initial.size none 0 value {}
      (newRoot g).2 place (hP _ List.mem_cons_self)
    obtain ⟨hrest, hheads⟩ := makes_addStates rest (setRoot g.initial.size added.1.2 added.2).2
      place fun s hs => hP s (List.mem_cons_of_mem _ hs)
    have hhead : (setRoot g.initial.size added.1.2 added.2).2.tree.IsHead added.1.1 := by
      rw [addNode_handle]
      exact ⟨p, hp, htop⟩
    rw [addStates]
    refine ⟨(hmakes.newRoot (hvacant Contents.vacant_empty)).trans hentry hgrown hrest,
      fun s hs => ?_⟩
    rcases List.mem_cons.1 hs with rfl | hs
    · exact hgrown.isHead hhead
    · exact hheads s hs

end

/-! ### Adding an image -/

/-- A step makes nodes, and the values of the given state assignments belong to themselves. -/
def MakesStep {α : Type} (P : Node → Prop) (step : Step α) (entries : α → List StateEntry) :
    Prop :=
  ∀ g, Makes P g (step g).2 ∧ ∀ s ∈ entries (step g).1, (step g).2.tree.IsHead s.param

lemma makesStep_mapM {α β : Type} {f : α → Step β} {needs : β → List Handle}
    {entries : β → List StateEntry} {as : List α} (hf : ∀ a ∈ as, Adds (f a) needs entries)
    (hmakes : ∀ a ∈ as, MakesStep P (f a) entries) :
    MakesStep P (as.mapM f) (·.flatMap entries) := by
  induction as with
  | nil => exact fun g => ⟨.refl g, fun s hs => by cases hs⟩
  | cons a rest ih =>
    intro g
    have hrest := fun b (hb : b ∈ rest) => List.mem_cons_of_mem a hb
    obtain ⟨params, -, hgrown⟩ := hf a List.mem_cons_self g
    obtain ⟨params', -, hgrown'⟩ := adds_mapM (fun b hb => hf b (hrest b hb)) (f a g).2
    obtain ⟨hfirst, hheads⟩ := hmakes a List.mem_cons_self g
    obtain ⟨hmade, hheads'⟩ := ih (fun b hb => hf b (hrest b hb))
      (fun b hb => hmakes b (hrest b hb)) (f a g).2
    rw [List.mapM_cons]
    refine ⟨hfirst.trans hgrown hgrown' hmade, fun s hs => ?_⟩
    rcases List.mem_append.1 hs with hs | hs
    · exact hgrown'.isHead (hheads s hs)
    · exact hheads' s hs

lemma makes_addRoot (flags : UInt32) (node : Node) (g : Growth)
    (hP : ∀ n q, node.Contains {} n q → P n) : Makes P g (addRoot flags node g).2 := by
  have h := makesNode_addNode g.initial.size none flags node {} (newRoot g).2 {} hP
  exact h.makes.newRoot (h.vacant Contents.vacant_empty)

lemma makesStep_addAnnotations (notes : List Node)
    (hP : ∀ m ∈ notes, ∀ n q, m.Contains {} n q → P n) :
    MakesStep P (addAnnotations notes) fun _ => [] := fun g =>
  ⟨((makesStep_mapM (fun n _ => adds_addRoot annotationFlag n) fun n hn g =>
    ⟨makes_addRoot annotationFlag n g (hP n hn), fun s hs => by cases hs⟩) g).1,
    fun s hs => by cases hs⟩

lemma isHead_annotate (h : Handle) (annotations : List Handle) {i : Handle}
    (hi : g.tree.IsHead i) : (g.annotate h annotations).tree.IsHead i := by
  obtain ⟨p, hp, htop⟩ := hi
  obtain ⟨p', hp', -, -, -, htop', -⟩ := exists_node?_annotate g h annotations hp
  exact ⟨p', hp', htop'.trans htop⟩

lemma Makes.annotate (h : Makes P g g') (handle : Handle) (annotations : List Handle) :
    Makes P g (g'.annotate handle annotations) := by
  have hvalues : ∀ i n, g'.tree.value? i = some n →
      (g'.annotate handle annotations).tree.value? i = some n := fun i n hn => by
    obtain ⟨p, hp, rfl⟩ := Option.map_eq_some_iff.1 hn
    obtain ⟨p', hp', hnode, -⟩ := exists_node?_annotate g' handle annotations hp
    exact hnode ▸ Tree.value?_of_node? hp'
  have hheads : ∀ i, g'.tree.IsHead i → (g'.annotate handle annotations).tree.IsHead i :=
    fun _ => isHead_annotate handle annotations
  refine ⟨fun i p hi hp => ?_, fun q hq => (h.pending q hq).imp_right ?_, h.vacant⟩
  · rcases eq_or_nodes_of_annotate hp with hp | ⟨q, hq, rfl⟩
    · exact (h.nodes i p hi hp).congr rfl rfl rfl hvalues hheads
    · exact (h.nodes i q hi hq).congr rfl rfl rfl hvalues hheads
  · rintro ⟨i, p, hi, hp⟩
    have hnode := node?_annotate g' handle annotations i
    rw [hp.node?] at hnode
    split at hnode
    · exact ⟨i, _, hi, ⟨hnode, hp.root, hp.node, hp.objects⟩⟩
    · exact ⟨i, p, hi, ⟨hnode, hp.root, hp.node, hp.objects⟩⟩

lemma makesStep_addParameter (r : ParameterRecord) (hP : ∀ n q, r.node.Contains {} n q → P n)
    (hnotes : ∀ m ∈ r.annotations, ∀ n q, m.Contains {} n q → P n) :
    MakesStep P (addParameter r) fun _ => [] := by
  intro g
  let flags := r.flags &&& flagMask
  obtain ⟨params, -, hgrown⟩ := adds_addAnnotations r.annotations (addRoot flags r.node g).2
  have hroot := makes_addRoot flags r.node g hP
  have hmade := makesStep_addAnnotations r.annotations hnotes (addRoot flags r.node g).2
  refine ⟨?_, fun s hs => by cases hs⟩
  exact (hroot.trans (grown_addRoot flags r.node g) hgrown hmade.1).annotate _ _

lemma makesStep_addPass (p : PassRecord)
    (hnotes : ∀ m ∈ p.annotations, ∀ n q, m.Contains {} n q → P n)
    (hstates : ∀ s ∈ p.states, ∀ n q, s.value.Contains { inPass := true } n q → P n) :
    MakesStep P (addPass p) (·.states) := by
  intro g
  obtain ⟨params, -, hgrown⟩ := adds_addAnnotations p.annotations g
  have hmade := makesStep_addAnnotations p.annotations hnotes g
  obtain ⟨hadded, hheads⟩ :=
    makes_addStates p.states (addAnnotations p.annotations g).2 { inPass := true } hstates
  exact ⟨hmade.1.trans hgrown (grown_addStates p.states _) hadded, hheads⟩

/-- To add an image is to make nodes from all values in it. -/
theorem makesStep_addImage (im : Image) (hP : ∀ n q, im.Contains n q → P n) :
    MakesStep P (addImage im) fun r => statesOf r.2 := by
  intro g
  have hparameters : MakesStep P (im.parameters.mapM addParameter) (·.flatMap fun _ => []) :=
    makesStep_mapM (fun r _ => adds_addParameter r) fun r hr =>
      makesStep_addParameter r (fun n q hn => hP n q (.parameter hr hn))
        fun m hm n q hn => hP n q (.parameterNote hr hm hn)
  have htechnique : ∀ t ∈ im.techniques,
      MakesStep P (addTechnique t) (·.passes.flatMap (·.states)) := by
    intro t ht g
    obtain ⟨params, -, hgrown⟩ := adds_addAnnotations t.annotations g
    obtain ⟨params', -, hgrown'⟩ :=
      (adds_mapM fun p (_ : p ∈ t.passes) => adds_addPass p) (addAnnotations t.annotations g).2
    have hmade := makesStep_addAnnotations t.annotations
      (fun m hm n q hn => hP n q (.techniqueNote ht hm hn)) g
    have hpasses := makesStep_mapM (fun p (_ : p ∈ t.passes) => adds_addPass p)
      (fun p hp => makesStep_addPass p (fun m hm n q hn => hP n q (.passNote ht hp hm hn))
        fun s hs n q hn => hP n q (.passState ht hp hs hn)) (addAnnotations t.annotations g).2
    exact ⟨hmade.1.trans hgrown hgrown' hpasses.1, hpasses.2⟩
  have htechniques := makesStep_mapM (fun t (_ : t ∈ im.techniques) => adds_addTechnique t)
    htechnique (im.parameters.mapM addParameter g).2
  obtain ⟨params, -, hgrown⟩ := (adds_mapM fun p (_ : p ∈ im.parameters) => adds_addParameter p) g
  obtain ⟨params', -, hgrown'⟩ :=
    (adds_mapM fun t (_ : t ∈ im.techniques) => adds_addTechnique t)
      (im.parameters.mapM addParameter g).2
  exact ⟨(hparameters g).1.trans hgrown hgrown' htechniques.1, htechniques.2⟩

end Growth

namespace Link

/-- Every node of a linked tree is made from a value of the image, its members are made from the
parts of the value, and the values of states belong to themselves. -/
structure Made (im : Image) (t : Tree) (techniques : List Technique) : Prop where
  value : ∀ h p, t.node? h = some p → ∃ q, im.Contains p.node q
  members : ∀ h p, t.node? h = some p → p.members.map t.value? = p.node.children.map some
  states : ∀ s ∈ allStates t techniques, t.IsHead s.param

lemma made_start (im : Image) : Made im (start im).tree (start im).techniques := by
  obtain ⟨hmakes, hheads⟩ := Growth.makesStep_addImage (P := fun n => ∃ q, im.Contains n q) im
    (fun n q hn => ⟨q, hn⟩) {}
  have hmade : ∀ h p, (start im).tree.node? h = some p →
      (start im).tree.MadeFrom (fun n => ∃ q, im.Contains n q) p := fun h p hp =>
    (hmakes.nodes h.index p (Nat.zero_le _) hp).congr rfl rfl rfl (fun _ _ h => h) fun _ h => h
  refine ⟨fun h p hp => (hmade h p hp).value, fun h p hp => (hmade h p hp).members,
    fun s hs => ?_⟩
  rcases List.mem_append.1 hs with hs | hs
  · exact hheads s hs
  · obtain ⟨p, hp, hs⟩ := List.mem_flatMap.1 hs
    obtain ⟨i, hi⟩ := List.mem_iff_getElem?.1 hp
    rw [Array.getElem?_toList] at hi
    exact (hmade ⟨i⟩ p hi).states s hs

variable {l l' : Linking}

lemma SameSkeleton.value? (h : SameSkeleton l l') (i : Handle) :
    l'.tree.value? i = l.tree.value? i := by
  have hvalue := congrArg (Option.map Parameter.node) (h.nodes i)
  rwa [Option.map_map, Option.map_map] at hvalue

/-- Linking keeps what nodes were made from. -/
lemma SameSkeleton.made {im : Image} (h : SameSkeleton l l') (hl : Made im l.tree l.techniques) :
    Made im l'.tree l'.techniques := by
  refine ⟨fun i p' hp' => ?_, fun i p' hp' => ?_, fun s' hs' => ?_⟩
  · obtain ⟨p, hp, hnode, -⟩ := h.symm.exists_node? hp'
    exact hnode ▸ hl.value i p hp
  · obtain ⟨p, hp, hnode, -, -, hmembers, -⟩ := h.symm.exists_node? hp'
    rw [← hnode, ← hmembers, funext h.value?]
    exact hl.members i p hp
  · have hmem := List.mem_map_of_mem (f := StateEntry.param) hs'
    rw [h.params] at hmem
    obtain ⟨s, hs, hparam⟩ := List.mem_map.1 hmem
    obtain ⟨p, hp, htop⟩ := hl.states s hs
    obtain ⟨p', hp', -, -, -, -, -, htop'⟩ := h.exists_node? hp
    exact ⟨p', hparam ▸ hp', htop'.trans (hparam ▸ htop)⟩

theorem made_link {im : Image} {skip : List String} {nextObject : Nat}
    (h : link im skip nextObject = .ok l) : Made im l.tree l.techniques :=
  (attaches_link h).skeleton.made (made_start im)

/-- The trees of an image: as it is laid out, and as it is linked. -/
inductive IsTreeOf (im : Image) : Tree → Prop
  | laid : IsTreeOf im (start im).tree
  | linked {skip : List String} {nextObject : Nat} {l : Linking} :
      link im skip nextObject = .ok l → IsTreeOf im l.tree

lemma IsTreeOf.exists_made {im : Image} {t : Tree} (h : IsTreeOf im t) :
    ∃ techniques, Made im t techniques := by
  cases h with
  | laid => exact ⟨_, made_start im⟩
  | linked hlink => exact ⟨_, made_link hlink⟩

/-- An array has the elements that it declares, each of the declared shape. -/
lemma Made.members_of_array {im : Image} {t : Tree} {techniques : List Technique}
    (ht : Made im t techniques) (him : im.WellFormed) {h : Handle} {p : Parameter}
    (hp : t.node? h = some p) (helements : p.decl.elements ≠ 0) :
    p.members.length = p.decl.elements.toNat ∧
      ∀ j ∈ p.members, ∃ q, t.node? j = some q ∧ q.decl = p.decl.element := by
  obtain ⟨q, hcontains⟩ := ht.value h p hp
  have hvalid := him.valid p.node q hcontains
  have hmembers := ht.members h p hp
  have hlength := congrArg List.length hmembers
  rw [List.length_map, List.length_map] at hlength
  rw [Parameter.decl] at helements ⊢
  cases hnode : p.node with
  | array d elements =>
    rw [hnode] at hvalid hmembers hlength
    refine ⟨hlength.trans hvalid.2.1, fun j hj => ?_⟩
    have hvalue := List.mem_map_of_mem (f := t.value?) hj
    rw [hmembers] at hvalue
    obtain ⟨n, hn, hvalue⟩ := List.mem_map.1 hvalue
    obtain ⟨q, hq, rfl⟩ := Option.map_eq_some_iff.1 hvalue.symm
    exact ⟨q, hq, hvalid.2.2 q.node hn⟩
  | _ =>
    rw [hnode] at hvalid helements
    exact absurd hvalid.1 helements

lemma Made.length_members {im : Image} {t : Tree} {techniques : List Technique}
    (ht : Made im t techniques) (him : im.WellFormed) {h : Handle} {p : Parameter}
    (hp : t.node? h = some p) (helements : p.decl.elements ≠ 0) :
    p.members.length = p.decl.elements.toNat :=
  (ht.members_of_array him hp helements).1

end Link

end ShaderEffect
