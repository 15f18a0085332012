import ShaderEffect.Effect.Link
import ShaderEffect.Proofs.Memory

/-!
# How trees grow

Growing adds nodes and roots and changes none that were there. The nodes of a root keep to it, and
each root that is added belongs to one top-level parameter, to one annotation, or to the value of
one state (`Growth.Grown`).
-/

namespace ShaderEffect.Growth

/-- The root of the node at a handle. -/
def root? (g : Growth) (h : Handle) : Option Nat := (g.nodes[h.index]?).map (·.root)

/-- The states of samplers from a node on. -/
def statesFrom (g : Growth) (start : Nat) : List StateEntry :=
  (g.nodes.toList.drop start).flatMap (·.states)

/-- The handles that own a root of their own: some parameters, and the values of some states and of
the states of samplers from a node on. -/
def owners (g : Growth) (params : List Handle) (entries : List StateEntry) (start : Nat) :
    List Handle :=
  params ++ (entries ++ g.statesFrom start).map (·.param)

/-- From one tree to another were added the given parameters and state assignments, with all that is
under them, and nodes of the roots in `R`. -/
structure Grown (g : Growth) (params : List Handle) (entries : List StateEntry) (R : Nat → Prop)
    (g' : Growth) : Prop where
  size_nodes : g.nodes.size ≤ g'.nodes.size
  size_initial : g.initial.size ≤ g'.initial.size
  nodes : ∀ i < g.nodes.size, g'.nodes[i]? = g.nodes[i]?
  root : ∀ i p, g.nodes.size ≤ i → g'.nodes[i]? = some p →
    R p.root ∨ g.initial.size ≤ p.root ∧ p.root < g'.initial.size
  members : ∀ i p, g.nodes.size ≤ i → g'.nodes[i]? = some p →
    ∀ h ∈ p.members, g'.root? h = some p.root
  annotations : ∀ i p, g.nodes.size ≤ i → g'.nodes[i]? = some p → ∀ h ∈ p.annotations, h ∈ params
  owned : ∀ h ∈ g'.owners params entries g.nodes.size,
    ∃ r, g'.root? h = some r ∧ g.initial.size ≤ r ∧ r < g'.initial.size
  nodup : ((g'.owners params entries g.nodes.size).map g'.root?).Nodup
  constant : ∀ s ∈ entries ++ g'.statesFrom g.nodes.size, s.source = .constant

variable {g g' g'' : Growth} {params params' : List Handle} {entries entries' : List StateEntry}
  {R S : Nat → Prop}

/-! ### Composition -/

lemma root?_eq_some {h : Handle} {r : Nat} :
    g.root? h = some r ↔ ∃ p, g.nodes[h.index]? = some p ∧ p.root = r :=
  Option.map_eq_some_iff

namespace Grown

lemma root?_eq (hg : Grown g params entries R g') {h : Handle} {r : Nat} (hr : g.root? h = some r) :
    g'.root? h = some r := by
  obtain ⟨p, hp, rfl⟩ := root?_eq_some.1 hr
  have hsize : h.index < g.nodes.size := (Array.getElem?_eq_some_iff.1 hp).1
  rw [root?, hg.nodes _ hsize, hp]
  rfl

/-- A node was there, or it was added. -/
lemma nodes_or_le (hg : Grown g params entries R g') {i : Nat} {p : Parameter}
    (hp : g'.nodes[i]? = some p) : g.nodes[i]? = some p ∨ g.nodes.size ≤ i := by
  by_cases hi : i < g.nodes.size
  · exact .inl ((hg.nodes i hi).symm.trans hp)
  · exact .inr (Nat.le_of_not_lt hi)

lemma mono (hg : Grown g params entries R g')
    (hR : ∀ r, R r → S r ∨ g.initial.size ≤ r ∧ r < g'.initial.size) :
    Grown g params entries S g' :=
  { hg with root := fun i p hi hp => (hg.root i p hi hp).elim (hR _) .inr }

lemma refl (g : Growth) (R : Nat → Prop) : Grown g [] [] R g := by
  have hnone : ∀ i p, g.nodes.size ≤ i → g.nodes[i]? ≠ some p := fun i p hi hp => by
    have := (Array.getElem?_eq_some_iff.1 hp).1
    omega
  have hstates : g.statesFrom g.nodes.size = [] := by
    rw [statesFrom, List.drop_eq_nil_of_le (Nat.le_of_eq Array.length_toList), List.flatMap_nil]
  exact {
    size_nodes := Nat.le_refl _
    size_initial := Nat.le_refl _
    nodes := fun _ _ => rfl
    root := fun i p hi hp => absurd hp (hnone i p hi)
    members := fun i p hi hp => absurd hp (hnone i p hi)
    annotations := fun i p hi hp => absurd hp (hnone i p hi)
    owned := by simp [owners, hstates]
    nodup := by simp [owners, hstates]
    constant := by simp [hstates] }

/-- What was there stays in front of what is added. -/
lemma toList_eq (hg : Grown g params entries R g') :
    g'.nodes.toList = g.nodes.toList ++ g'.nodes.toList.drop g.nodes.size := by
  have hle := hg.size_nodes
  have htake : g'.nodes.toList.take g.nodes.size = g.nodes.toList := by
    refine List.ext_getElem? fun i => ?_
    by_cases hi : i < g.nodes.size
    · rw [List.getElem?_take_of_lt hi, Array.getElem?_toList, Array.getElem?_toList, hg.nodes i hi]
    · rw [List.getElem?_eq_none, List.getElem?_eq_none]
      · simpa using Nat.le_of_not_lt hi
      · simp only [List.length_take, Array.length_toList]
        omega
  conv_lhs => rw [← List.take_append_drop g.nodes.size g'.nodes.toList, htake]

lemma drop_eq (hg : Grown g params entries R g') (hg' : Grown g' params' entries' S g'') :
    g''.nodes.toList.drop g.nodes.size =
      g'.nodes.toList.drop g.nodes.size ++ g''.nodes.toList.drop g'.nodes.size := by
  conv_lhs => rw [hg'.toList_eq]
  exact List.drop_append_of_le_length (by simpa using hg.size_nodes)

lemma statesFrom_eq (hg : Grown g params entries R g') (hg' : Grown g' params' entries' S g'') :
    g''.statesFrom g.nodes.size = g'.statesFrom g.nodes.size ++ g''.statesFrom g'.nodes.size := by
  rw [statesFrom, hg.drop_eq hg', List.flatMap_append]
  rfl

lemma owners_perm (hg : Grown g params entries R g') (hg' : Grown g' params' entries' S g'') :
    (g''.owners (params ++ params') (entries ++ entries') g.nodes.size).Perm
      (g'.owners params entries g.nodes.size ++ g''.owners params' entries' g'.nodes.size) := by
  simp only [owners, hg.statesFrom_eq hg', List.map_append, List.append_assoc]
  refine List.Perm.append_left _ ?_
  -- Parameters and states of the second part move in front of the rest of the first one.
  refine (List.perm_append_comm_assoc _ _ _).trans (List.Perm.append_left _ ?_)
  exact (List.Perm.append_left _ (List.perm_append_comm_assoc _ _ _)).trans
    (List.perm_append_comm_assoc _ _ _)

/-- What is added in two parts is added as a whole. -/
lemma trans (hg : Grown g params entries R g') (hg' : Grown g' params' entries' R g'') :
    Grown g (params ++ params') (entries ++ entries') R g'' := by
  have hnodes := hg.size_nodes
  have hinitial := hg.size_initial
  have hinitial' := hg'.size_initial
  have hperm := hg.owners_perm hg'
  have howned : ∀ h ∈ g'.owners params entries g.nodes.size,
      ∃ r, g''.root? h = some r ∧ g.initial.size ≤ r ∧ r < g'.initial.size := fun h hh => by
    obtain ⟨r, hr, hbounds⟩ := hg.owned h hh
    exact ⟨r, hg'.root?_eq hr, hbounds⟩
  refine ⟨Nat.le_trans hnodes hg'.size_nodes, Nat.le_trans hinitial hinitial', ?_, ?_, ?_, ?_,
    ?_, ?_, ?_⟩
  · intro i hi
    rw [hg'.nodes i (by omega), hg.nodes i hi]
  · intro i p hi hp
    rcases hg'.nodes_or_le hp with hp | hi'
    · exact (hg.root i p hi hp).imp_right fun h => ⟨h.1, by omega⟩
    · exact (hg'.root i p hi' hp).imp_right fun h => ⟨by omega, h.2⟩
  · intro i p hi hp h hh
    rcases hg'.nodes_or_le hp with hp | hi'
    · exact hg'.root?_eq (hg.members i p hi hp h hh)
    · exact hg'.members i p hi' hp h hh
  · intro i p hi hp h hh
    rcases hg'.nodes_or_le hp with hp | hi'
    · exact List.mem_append_left _ (hg.annotations i p hi hp h hh)
    · exact List.mem_append_right _ (hg'.annotations i p hi' hp h hh)
  · intro h hh
    rcases List.mem_append.1 (hperm.mem_iff.1 hh) with hh | hh
    · obtain ⟨r, hr, hlow, hhigh⟩ := howned h hh
      exact ⟨r, hr, hlow, by omega⟩
    · obtain ⟨r, hr, hlow, hhigh⟩ := hg'.owned h hh
      exact ⟨r, hr, by omega, hhigh⟩
  · rw [(hperm.map g''.root?).nodup_iff, List.map_append, List.nodup_append]
    refine ⟨?_, hg'.nodup, ?_⟩
    · have hsame : (g'.owners params entries g.nodes.size).map g''.root? =
          (g'.owners params entries g.nodes.size).map g'.root? :=
        List.map_congr_left fun h hh => by
          obtain ⟨r, hr, -⟩ := hg.owned h hh
          rw [hr, hg'.root?_eq hr]
      rw [hsame]
      exact hg.nodup
    · -- Roots of the first part are smaller than those of the second one.
      rintro _ ha _ hb heq
      obtain ⟨h, hh, rfl⟩ := List.mem_map.1 ha
      obtain ⟨h', hh', rfl⟩ := List.mem_map.1 hb
      obtain ⟨r, hr, -, hhigh⟩ := howned h hh
      obtain ⟨r', hr', hlow, -⟩ := hg'.owned h' hh'
      rw [hr, hr', Option.some.injEq] at heq
      omega
  · intro s hs
    rw [hg.statesFrom_eq hg'] at hs
    rcases List.mem_append.1 hs with hs | hs <;> rcases List.mem_append.1 hs with hs | hs
    · exact hg.constant s (List.mem_append_left _ hs)
    · exact hg'.constant s (List.mem_append_left _ hs)
    · exact hg.constant s (List.mem_append_right _ hs)
    · exact hg'.constant s (List.mem_append_right _ hs)

end Grown

/-! ### Nodes and roots -/

/-- Contents of roots and slots that wait do not matter to what was added. -/
lemma Grown.congr (hg : Grown g params entries R g') (hnodes : g''.nodes = g'.nodes)
    (hsize : g''.initial.size = g'.initial.size) : Grown g params entries R g'' := by
  obtain ⟨nodes, initial, pending⟩ := g''
  subst hnodes
  exact {
    size_nodes := hg.size_nodes
    size_initial := hsize ▸ hg.size_initial
    nodes := hg.nodes
    root := hsize ▸ hg.root
    members := hg.members
    annotations := hg.annotations
    owned := hsize ▸ hg.owned
    nodup := hg.nodup
    constant := hg.constant }

lemma size_nodes_reserve (node : Node) (root : Nat) (top : Option Handle) (flags : UInt32)
    (g : Growth) : (reserve node root top flags g).2.nodes.size = g.nodes.size + 1 :=
  Array.size_push ..

lemma size_initial_newRoot (g : Growth) : (newRoot g).2.initial.size = g.initial.size + 1 :=
  Array.size_push ..

lemma lt_size_newRoot (g : Growth) : g.initial.size < (newRoot g).2.initial.size :=
  Nat.lt_of_lt_of_eq (Nat.lt_succ_self _) (size_initial_newRoot g).symm

/-- A slot that waits is no node. -/
lemma grown_await (root slot : Nat) (id : UInt32) (g : Growth) (R : Nat → Prop) :
    Grown g [] [] R (await root slot id g).2 :=
  (Grown.refl g R).congr rfl rfl

/-- The node that a reserved place is filled with. -/
def filled (g : Growth) (node : Node) (root : Nat) (top : Handle) (flags : UInt32)
    (members : List Handle) (entries : List StateEntry) (before after : Contents) : Parameter where
  node
  members
  annotations := []
  flags
  bytes := sizeOfNode node (members.map g.sizeAt)
  root
  top
  words := ⟨before.words.size, after.words.size - before.words.size⟩
  objects := ⟨before.objects.size, after.objects.size - before.objects.size⟩
  states := entries

section

variable {node : Node} {root : Nat} {top : Option Handle} {flags : UInt32} {members : List Handle}
  {before after : Contents}

/-- What is at the place of a node until it is filled. -/
lemma nodes_reserve (hg : Grown (reserve node root top flags g).2 params entries' R g') :
    g'.nodes[g.nodes.size]? =
      some { node, members := [], annotations := [], flags, bytes := 0
             root, top := top.getD ⟨g.nodes.size⟩, words := ⟨0, 0⟩, objects := ⟨0, 0⟩
             states := [] } := by
  have hlt : g.nodes.size < (reserve node root top flags g).2.nodes.size := by
    rw [size_nodes_reserve]
    exact Nat.lt_succ_self _
  exact (hg.nodes g.nodes.size hlt).trans Array.getElem?_push_size

variable (entries members before after) in
/-- What the place of a node is filled with. -/
lemma nodes_finish_self (hg : Grown (reserve node root top flags g).2 params entries' R g') :
    (finish ⟨g.nodes.size⟩ node members entries before after g').2.nodes[g.nodes.size]? =
      some (g'.filled node root (top.getD ⟨g.nodes.size⟩) flags members entries before after) :=
  Array.getElem?_modify.trans ((if_pos rfl).trans (congrArg _ (nodes_reserve hg)))

/-- Other nodes stay when the place of a node is filled. -/
lemma nodes_finish_of_ne {i : Nat} (hi : i ≠ g.nodes.size) :
    (finish ⟨g.nodes.size⟩ node members entries before after g').2.nodes[i]? = g'.nodes[i]? :=
  Array.getElem?_modify.trans (if_neg hi.symm)

/-- From the place of a node on, there is the node that fills it, and what was added under it. -/
lemma eq_or_nodes_of_finish (hg : Grown (reserve node root top flags g).2 params entries' R g')
    {i : Nat} {p : Parameter} (hi : g.nodes.size ≤ i)
    (hp : (finish ⟨g.nodes.size⟩ node members entries before after g').2.nodes[i]? = some p) :
    i = g.nodes.size ∧
        p = g'.filled node root (top.getD ⟨g.nodes.size⟩) flags members entries before after ∨
      (reserve node root top flags g).2.nodes.size ≤ i ∧ g'.nodes[i]? = some p := by
  by_cases hself : i = g.nodes.size
  · subst hself
    have hnew := nodes_finish_self entries members before after hg
    exact .inl ⟨rfl, Option.some.inj (hp.symm.trans hnew)⟩
  · rw [size_nodes_reserve]
    exact .inr ⟨by omega, (nodes_finish_of_ne hself).symm.trans hp⟩

lemma root?_finish (hg : Grown (reserve node root top flags g).2 params entries' R g')
    (h : Handle) :
    (finish ⟨g.nodes.size⟩ node members entries before after g').2.root? h = g'.root? h := by
  rw [root?, root?]
  by_cases hh : h.index = g.nodes.size
  · rw [hh, nodes_finish_self entries members before after hg, nodes_reserve hg]
    rfl
  · rw [nodes_finish_of_ne hh]

variable (entries members before after) in
lemma statesFrom_finish (hg : Grown (reserve node root top flags g).2 params entries' R g') :
    (finish ⟨g.nodes.size⟩ node members entries before after g').2.statesFrom g.nodes.size =
      entries ++ g'.statesFrom (reserve node root top flags g).2.nodes.size := by
  have hself := nodes_finish_self entries members before after hg
  have hother : ∀ i, i ≠ g.nodes.size →
      (finish ⟨g.nodes.size⟩ node members entries before after g').2.nodes[i]? = g'.nodes[i]? :=
    fun _ => nodes_finish_of_ne
  obtain ⟨hlt, hget⟩ := Array.getElem?_eq_some_iff.1 hself
  rw [statesFrom, List.drop_eq_getElem_cons (by simpa using hlt), List.flatMap_cons,
    Array.getElem_toList, hget, statesFrom, size_nodes_reserve]
  congr 2
  refine List.ext_getElem? fun i => ?_
  rw [List.getElem?_drop, List.getElem?_drop, Array.getElem?_toList, Array.getElem?_toList,
    hother _ (by omega)]

/-- The place of a node is reserved, what is under it is added, and then its place is filled. -/
lemma Grown.finish (hg : Grown (reserve node root top flags g).2 [] entries (· = root) g')
    (hmembers : ∀ h ∈ members, g'.root? h = some root) :
    Grown g [] [] (· = root) (finish ⟨g.nodes.size⟩ node members entries before after g').2 ∧
      (finish ⟨g.nodes.size⟩ node members entries before after g').2.root? ⟨g.nodes.size⟩ =
        some root := by
  have hsize := hg.size_nodes
  have hstates := statesFrom_finish entries members before after hg
  have howners : (Growth.finish ⟨g.nodes.size⟩ node members entries before after g').2.owners [] []
      g.nodes.size = g'.owners [] entries (reserve node root top flags g).2.nodes.size := by
    rw [owners, owners, hstates]
    rfl
  rw [size_nodes_reserve] at hsize
  refine ⟨⟨?_, hg.size_initial, ?_, ?_, ?_, ?_, ?_, ?_, ?_⟩, ?_⟩
  · rw [show (Growth.finish ⟨g.nodes.size⟩ node members entries before after g').2.nodes.size =
      g'.nodes.size from Array.size_modify]
    omega
  · intro i hi
    have hlt : i < (reserve node root top flags g).2.nodes.size := by
      rw [size_nodes_reserve]
      omega
    rw [nodes_finish_of_ne (by omega), hg.nodes i hlt]
    exact Array.getElem?_push_lt hi ▸ (Array.getElem?_eq_getElem hi).symm
  · intro i p hi hp
    rcases eq_or_nodes_of_finish hg hi hp with ⟨-, rfl⟩ | ⟨hi, hp⟩
    · exact .inl rfl
    · exact hg.root i p hi hp
  · intro i p hi hp h hh
    rw [root?_finish hg]
    rcases eq_or_nodes_of_finish hg hi hp with ⟨-, rfl⟩ | ⟨hi, hp⟩
    · exact hmembers h hh
    · exact hg.members i p hi hp h hh
  · intro i p hi hp h hh
    rcases eq_or_nodes_of_finish hg hi hp with ⟨-, rfl⟩ | ⟨hi, hp⟩
    · cases hh
    · exact hg.annotations i p hi hp h hh
  · intro h hh
    rw [root?_finish hg]
    exact hg.owned h (howners ▸ hh)
  · rw [howners, funext (root?_finish hg)]
    exact hg.nodup
  · rw [hstates]
    exact hg.constant
  · rw [root?_finish hg, root?, nodes_reserve hg]
    rfl

end

/-- A root is numbered, its node is added, and its contents are set. -/
lemma Grown.newRoot {h : Handle} {contents : Contents}
    (hg : Grown (newRoot g).2 [] [] (· = g.initial.size) g')
    (hroot : g'.root? h = some g.initial.size)
    (howner : params ++ entries.map (·.param) = [h])
    (hconstant : ∀ s ∈ entries, s.source = .constant) :
    Grown g params entries (fun _ => False) (setRoot g.initial.size contents g').2 := by
  have hnumbered := size_initial_newRoot g
  have hinitial := hg.size_initial
  have howners : g'.owners params entries g.nodes.size = h :: g'.owners [] [] g.nodes.size := by
    rw [owners, List.map_append, ← List.append_assoc, howner]
    rfl
  have hgrown : Grown g params entries (fun _ => False) g' := by
    refine ⟨hg.size_nodes, by omega, hg.nodes, ?_, hg.members, ?_, ?_, ?_, ?_⟩
    · intro i p hi hp
      rcases hg.root i p hi hp with h | h
      · exact .inr ⟨by omega, by omega⟩
      · exact .inr ⟨by omega, h.2⟩
    · intro i p hi hp h hh
      cases hg.annotations i p hi hp h hh
    · intro h' hh'
      rw [howners] at hh'
      rcases List.mem_cons.1 hh' with rfl | hh'
      · exact ⟨_, hroot, by omega, by omega⟩
      · obtain ⟨r, hr, hlow, hhigh⟩ := hg.owned h' hh'
        exact ⟨r, hr, by omega, hhigh⟩
    · rw [howners, List.map_cons, List.nodup_cons]
      refine ⟨fun hmem => ?_, hg.nodup⟩
      -- The other roots were numbered later.
      obtain ⟨h', hh', heq⟩ := List.mem_map.1 hmem
      obtain ⟨r, hr, hlow, -⟩ := hg.owned h' hh'
      rw [hr, hroot, Option.some.injEq] at heq
      omega
    · intro s hs
      rcases List.mem_append.1 hs with hs | hs
      · exact hconstant s hs
      · exact hg.constant s hs
  exact hgrown.congr rfl (Array.size_setIfInBounds ..)

/-- The value of a state is the root of the node that was added for it. -/
lemma Grown.entry {h : Handle} (operation index : UInt32) (contents : Contents)
    (hg : Grown (Growth.newRoot g).2 [] [] (· = g.initial.size) g')
    (hroot : g'.root? h = some g.initial.size) :
    Grown g [] [⟨operation, index, h, .constant⟩] (fun _ => False)
      (setRoot g.initial.size contents g').2 :=
  hg.newRoot hroot rfl (by simp)

/-! ### Adding nodes -/

mutual

lemma grown_addNode (root : Nat) (top : Option Handle) (flags : UInt32) (node : Node)
    (before : Contents) (g : Growth) :
    Grown g [] [] (· = root) (addNode root top flags node before g).2 ∧
      (addNode root top flags node before g).2.root? (addNode root top flags node before g).1.1 =
        some root := by
  cases node with
  | array d elements =>
    have h := grown_addNodes root (top.getD ⟨g.nodes.size⟩) flags elements before
      (reserve (.array d elements) root top flags g).2
    rw [addNode]
    exact h.1.finish h.2
  | struct d fields =>
    have h := grown_addNodes root (top.getD ⟨g.nodes.size⟩) flags fields before
      (reserve (.struct d fields) root top flags g).2
    rw [addNode]
    exact h.1.finish h.2
  | words d ws =>
    rw [addNode]
    exact Grown.finish (.refl _ _) fun _ h => by cases h
  | object d id =>
    rw [addNode]
    exact (grown_await ..).finish fun _ h => by cases h
  | sampler d states =>
    have h := grown_addStates states (reserve (.sampler d states) root top flags g).2
    rw [addNode]
    exact (h.mono fun _ h => h.elim).finish fun _ h => by cases h
  | unsupported d =>
    rw [addNode]
    exact Grown.finish (.refl _ _) fun _ h => by cases h

lemma grown_addNodes (root : Nat) (top : Handle) (flags : UInt32) (nodes : List Node)
    (before : Contents) (g : Growth) :
    Grown g [] [] (· = root) (addNodes root top flags nodes before g).2 ∧
      ∀ h ∈ (addNodes root top flags nodes before g).1.1,
        (addNodes root top flags nodes before g).2.root? h = some root := by
  cases nodes with
  | nil => exact ⟨.refl _ _, fun h hh => by cases hh⟩
  | cons node rest =>
    have hfirst := grown_addNode root (some top) flags node before g
    have hrest := grown_addNodes root top flags rest
      (addNode root (some top) flags node before g).1.2
      (addNode root (some top) flags node before g).2
    rw [addNodes]
    refine ⟨hfirst.1.trans hrest.1, fun h hh => ?_⟩
    rcases List.mem_cons.1 hh with rfl | hh
    · exact hrest.1.root?_eq hfirst.2
    · exact hrest.2 h hh

lemma grown_addStates (states : List (Assignment Node)) (g : Growth) :
    Grown g [] (addStates states g).1 (fun _ => False) (addStates states g).2 := by
  cases states with
  | nil => exact .refl _ _
  | cons state rest =>
    obtain ⟨operation, index, value⟩ := state
    have hvalue := grown_addNode g.initial.size none 0 value {} (newRoot g).2
    rw [addStates]
    exact (hvalue.1.entry operation index _ hvalue.2).trans (grown_addStates rest _)

end

/-! ### Adding an image -/

/-- To add something is to add some parameters, among them the given ones, and the given state
assignments. -/
def Adds {α : Type} (step : Step α) (needs : α → List Handle) (entries : α → List StateEntry) :
    Prop :=
  ∀ g, ∃ params, needs (step g).1 ⊆ params ∧
    Grown g params (entries (step g).1) (fun _ => False) (step g).2

lemma adds_mapM {α β : Type} {f : α → Step β} {needs : β → List Handle}
    {entries : β → List StateEntry} {as : List α} (hf : ∀ a ∈ as, Adds (f a) needs entries) :
    Adds (as.mapM f) (·.flatMap needs) (·.flatMap entries) := by
  induction as with
  | nil => exact fun g => ⟨[], List.nil_subset _, .refl g _⟩
  | cons a rest ih =>
    intro g
    obtain ⟨params, hneeds, hgrown⟩ := hf a List.mem_cons_self g
    obtain ⟨params', hneeds', hgrown'⟩ :=
      ih (fun b hb => hf b (List.mem_cons_of_mem _ hb)) (f a g).2
    rw [List.mapM_cons]
    refine ⟨params ++ params', ?_, hgrown.trans hgrown'⟩
    exact List.append_subset.2
      ⟨List.subset_append_of_subset_left _ hneeds, List.subset_append_of_subset_right _ hneeds'⟩

lemma addNode_handle (root : Nat) (top : Option Handle) (flags : UInt32) (node : Node)
    (before : Contents) (g : Growth) :
    (addNode root top flags node before g).1.1 = ⟨g.nodes.size⟩ := by
  cases node <;> rw [addNode] <;> rfl

lemma grown_addRoot (flags : UInt32) (node : Node) (g : Growth) :
    Grown g [⟨g.nodes.size⟩] [] (fun _ => False) (addRoot flags node g).2 := by
  have hnode := grown_addNode g.initial.size none flags node {} (newRoot g).2
  exact hnode.1.newRoot hnode.2 (by rw [addNode_handle]; rfl) fun _ h => by cases h

lemma addRoot_handle (flags : UInt32) (node : Node) (g : Growth) :
    (addRoot flags node g).1 = ⟨g.nodes.size⟩ :=
  addNode_handle ..

lemma adds_addRoot (flags : UInt32) (node : Node) :
    Adds (addRoot flags node) (fun h => [h]) (fun _ => []) := fun g =>
  ⟨_, by rw [addRoot_handle]; exact List.Subset.refl _, grown_addRoot flags node g⟩

lemma adds_addAnnotations (nodes : List Node) : Adds (addAnnotations nodes) id (fun _ => []) := by
  intro g
  obtain ⟨params, hneeds, hgrown⟩ :=
    (adds_mapM fun n (_ : n ∈ nodes) => adds_addRoot annotationFlag n) g
  have hneeds : (addAnnotations nodes g).1.flatMap (fun h => [h]) ⊆ params := hneeds
  have hgrown : Grown g params ((addAnnotations nodes g).1.flatMap fun _ => []) (fun _ => False)
      (addAnnotations nodes g).2 := hgrown
  rw [List.flatMap_eq_nil_iff.2 fun _ _ => rfl] at hgrown
  exact ⟨params, by simpa using hneeds, hgrown⟩

/-- Note annotations at a node. -/
def annotate (g : Growth) (h : Handle) (annotations : List Handle) : Growth :=
  { g with nodes := g.nodes.modify h.index fun p => { p with annotations } }

section

variable (g : Growth) (h : Handle) (annotations : List Handle)

lemma nodes_annotate (i : Nat) : (g.annotate h annotations).nodes[i]? =
    if h.index = i then (g.nodes[i]?).map fun p => { p with annotations } else g.nodes[i]? :=
  Array.getElem?_modify

lemma root?_annotate (i : Handle) : (g.annotate h annotations).root? i = g.root? i := by
  rw [root?, root?, nodes_annotate]
  split
  · rw [Option.map_map]
    rfl
  · rfl

lemma statesFrom_annotate (start : Nat) :
    (g.annotate h annotations).statesFrom start = g.statesFrom start := by
  rw [statesFrom, statesFrom, List.flatMap_def, List.flatMap_def]
  congr 1
  refine List.ext_getElem? fun i => ?_
  rw [List.getElem?_map, List.getElem?_map, List.getElem?_drop, List.getElem?_drop,
    Array.getElem?_toList, Array.getElem?_toList, nodes_annotate]
  split
  · rw [Option.map_map]
    rfl
  · rfl

variable {g h annotations}

/-- A node is as it was before annotations were noted, or it has these. -/
lemma eq_or_nodes_of_annotate {i : Nat} {p : Parameter}
    (hp : (g.annotate h annotations).nodes[i]? = some p) :
    g.nodes[i]? = some p ∨ ∃ q, g.nodes[i]? = some q ∧ p = { q with annotations } := by
  rw [nodes_annotate] at hp
  split at hp
  · obtain ⟨q, hq, rfl⟩ := Option.map_eq_some_iff.1 hp
    exact .inr ⟨q, hq, rfl⟩
  · exact .inl hp

/-- Annotations are given to a node that was added. -/
lemma Grown.annotate (hg : Grown g params entries R g') (hh : g.nodes.size ≤ h.index)
    (hsub : annotations ⊆ params) : Grown g params entries R (g'.annotate h annotations) := by
  have hstates := statesFrom_annotate g' h annotations g.nodes.size
  have howners : (g'.annotate h annotations).owners params entries g.nodes.size =
      g'.owners params entries g.nodes.size := by
    rw [owners, owners, hstates]
  refine ⟨?_, hg.size_initial, ?_, ?_, ?_, ?_, ?_, ?_, hstates ▸ hg.constant⟩
  · exact Nat.le_trans hg.size_nodes (Nat.le_of_eq Array.size_modify.symm)
  · intro i hi
    rw [nodes_annotate, if_neg (by omega), hg.nodes i hi]
  · intro i p hi hp
    rcases eq_or_nodes_of_annotate hp with hp | ⟨q, hq, rfl⟩
    · exact hg.root i p hi hp
    · exact hg.root i q hi hq
  · intro i p hi hp h' hh'
    rw [root?_annotate]
    rcases eq_or_nodes_of_annotate hp with hp | ⟨q, hq, rfl⟩
    · exact hg.members i p hi hp h' hh'
    · exact hg.members i q hi hq h' hh'
  · intro i p hi hp h' hh'
    rcases eq_or_nodes_of_annotate hp with hp | ⟨q, -, rfl⟩
    · exact hg.annotations i p hi hp h' hh'
    · exact hsub hh'
  · intro h' hh'
    rw [root?_annotate]
    exact hg.owned h' (howners ▸ hh')
  · rw [howners, funext (root?_annotate g' h annotations)]
    exact hg.nodup

end

lemma adds_addParameter (p : ParameterRecord) :
    Adds (addParameter p) (fun h => [h]) (fun _ => []) := by
  intro g
  let flags := p.flags &&& flagMask
  have hroot := grown_addRoot flags p.node g
  obtain ⟨params, hneeds, hgrown⟩ := adds_addAnnotations p.annotations (addRoot flags p.node g).2
  refine ⟨⟨g.nodes.size⟩ :: params, ?_, (hroot.trans hgrown).annotate ?_ ?_⟩
  · exact List.cons_subset.2 ⟨by rw [← addRoot_handle flags p.node g]; exact List.mem_cons_self,
      List.nil_subset _⟩
  · exact Nat.le_of_eq (congrArg Handle.index (addRoot_handle flags p.node g)).symm
  · exact List.subset_cons_of_subset _ hneeds

lemma adds_addPass (p : PassRecord) : Adds (addPass p) (·.annotations) (·.states) := by
  intro g
  obtain ⟨params, hneeds, hgrown⟩ := adds_addAnnotations p.annotations g
  have hstates := grown_addStates p.states (addAnnotations p.annotations g).2
  refine ⟨params, hneeds, ?_⟩
  have hboth := hgrown.trans hstates
  rwa [List.append_nil] at hboth

lemma adds_addTechnique (t : TechniqueRecord) :
    Adds (addTechnique t) (fun t => t.annotations ++ t.passes.flatMap (·.annotations))
      (·.passes.flatMap (·.states)) := by
  intro g
  obtain ⟨params, hneeds, hgrown⟩ := adds_addAnnotations t.annotations g
  obtain ⟨params', hneeds', hgrown'⟩ :=
    (adds_mapM fun p (_ : p ∈ t.passes) => adds_addPass p) (addAnnotations t.annotations g).2
  exact ⟨params ++ params', List.append_subset.2
    ⟨List.subset_append_of_subset_left _ hneeds, List.subset_append_of_subset_right _ hneeds'⟩,
    hgrown.trans hgrown'⟩

/-- The annotations of techniques and of their passes. -/
def annotationsOf (techniques : List Technique) : List Handle :=
  techniques.flatMap fun t => t.annotations ++ t.passes.flatMap (·.annotations)

/-- The states of the passes of techniques. -/
def statesOf (techniques : List Technique) : List StateEntry :=
  techniques.flatMap (·.passes.flatMap (·.states))

/-- To add an image is to add its top-level parameters, all annotations, and the states of its
passes. -/
theorem adds_addImage (im : Image) :
    Adds (addImage im) (fun r => r.1 ++ annotationsOf r.2) (fun r => statesOf r.2) := by
  intro g
  obtain ⟨params, hneeds, hgrown⟩ :=
    (adds_mapM fun p (_ : p ∈ im.parameters) => adds_addParameter p) g
  obtain ⟨params', hneeds', hgrown'⟩ :=
    (adds_mapM fun t (_ : t ∈ im.techniques) => adds_addTechnique t)
      (im.parameters.mapM addParameter g).2
  have hneeds : (addImage im g).1.1.flatMap (fun h => [h]) ⊆ params := hneeds
  have hgrown : Grown g params ((addImage im g).1.1.flatMap fun _ => []) (fun _ => False)
      (im.parameters.mapM addParameter g).2 := hgrown
  rw [List.flatMap_eq_nil_iff.2 fun _ _ => rfl] at hgrown
  rw [List.flatMap_singleton'] at hneeds
  exact ⟨params ++ params', List.append_subset.2
    ⟨List.subset_append_of_subset_left _ hneeds, List.subset_append_of_subset_right _ hneeds'⟩,
    hgrown.trans hgrown'⟩

end ShaderEffect.Growth
