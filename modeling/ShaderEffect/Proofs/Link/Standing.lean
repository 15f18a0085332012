import ShaderEffect.Proofs.Link.Laid
import ShaderEffect.Proofs.Link.Nested
import ShaderEffect.Proofs.Link.Tile

/-!
# How values stand in trees

A value stands in a tree if its node is there and its parts follow it, one after the other, each
with its part of the block of the root, in the order of the value (`Tree.Stands`). To add a value is
to let it stand behind what was there and to put what its leaves keep behind the contents laid out
so far, and every root that is numbered on the way is the root of a value that stands
(`Growth.Raises`).
-/

namespace ShaderEffect

/-! ### What values keep -/

namespace Node

mutual

/-- The parts of a value that have no parts of their own, in tree order. -/
def leafNodes : Node → List Node
  | .array _ elements => leafNodesOf elements
  | .struct _ members => leafNodesOf members
  | .words d ws => [.words d ws]
  | .object d id => [.object d id]
  | .sampler d states => [.sampler d states]
  | .unsupported d => [.unsupported d]

/-- The leaves of several values. -/
def leafNodesOf : List Node → List Node
  | [] => []
  | n :: rest => n.leafNodes ++ leafNodesOf rest

end

/-- What a leaf keeps in a block: its words, or the number of the object in its slot. -/
def leafData : Storage → Node → List UInt32
  | .words, .words _ ws => ws
  | .objects, .object _ id => [id]
  | _, _ => []

/-- What the leaves of a value keep, in tree order. -/
def data (n : Node) (k : Storage) : List UInt32 := n.leafNodes.flatMap (leafData k)

/-- What the leaves of several values keep. -/
def dataOf (ns : List Node) (k : Storage) : List UInt32 := (leafNodesOf ns).flatMap (leafData k)

/-- The states of a sampler. -/
def states : Node → List (Assignment Node)
  | .sampler _ states => states
  | _ => []

@[simp] lemma dataOf_nil (k : Storage) : dataOf [] k = [] := rfl

@[simp] lemma dataOf_cons (n : Node) (rest : List Node) (k : Storage) :
    dataOf (n :: rest) k = n.data k ++ dataOf rest k :=
  List.flatMap_append

lemma dataOf_singleton (n : Node) : dataOf [n] = n.data := by
  funext k
  simp

lemma data_eq_dataOf {n : Node} (h : n.isLeaf = false) : n.data = dataOf n.children := by
  cases n with
  | array | struct => rfl
  | _ => cases h

end Node

namespace Contents

/-- Contents with words, and with slots for objects, that are put behind them. -/
def extended (c : Contents) (data : Storage → List UInt32) : Contents :=
  ⟨c.words ++ (data .words).toArray, c.objects ++ Array.replicate (data .objects).length none⟩

lemma size_extended (c : Contents) (data : Storage → List UInt32) (k : Storage) :
    k.size (c.extended data) = k.size c + (data k).length := by
  cases k <;> simp [Storage.size, extended]

lemma extended_nil (c : Contents) : c.extended (fun _ => []) = c := by
  simp [extended]

lemma extended_words (c : Contents) (d : Declaration) (ws : List UInt32) :
    c.extended (Node.words d ws).data = { c with words := c.words ++ ws.toArray } := by
  simp [extended, Node.data, Node.leafNodes, Node.leafData]

lemma extended_object (c : Contents) (d : Declaration) (id : UInt32) :
    c.extended (Node.object d id).data = { c with objects := c.objects.push none } := by
  simp [extended, Node.data, Node.leafNodes, Node.leafData]

lemma extended_sampler (c : Contents) (d : Declaration) (states : List (Assignment Node)) :
    c.extended (Node.sampler d states).data = c := by
  simp [extended, Node.data, Node.leafNodes, Node.leafData]

lemma extended_unsupported (c : Contents) (d : Declaration) :
    c.extended (Node.unsupported d).data = c := by
  simp [extended, Node.data, Node.leafNodes, Node.leafData]

lemma extended_extended (c : Contents) (data more : Storage → List UInt32) :
    (c.extended data).extended more = c.extended fun k => data k ++ more k := by
  simp [extended, Array.append_assoc, ← Array.replicate_append_replicate]

end Contents

/-! ### Values that stand -/

namespace Tree

/-- The value that a node was made from. -/
def value? (t : Tree) (h : Handle) : Option Node := (t.node? h).map (·.node)

/-- The size in bytes of the node at a handle. -/
def bytesAt (t : Tree) (h : Handle) : UInt32 := ((t.node? h).map (·.bytes)).getD 0

/-- State entries are those of the assignments of a sampler. Their values are roots of their own,
whose handles and numbers come after given ones. -/
structure Assigned (t : Tree) (first lowest : Nat) (states : List (Assignment Node))
    (entries : List StateEntry) : Prop where
  values : entries.map (fun s => (s.operation, s.index, t.value? s.param)) =
    states.map fun a => (a.operation, a.index, some a.value)
  later : ∀ s ∈ entries, first ≤ s.param.index
  apart : ∀ s ∈ entries, ∃ r, t.root? s.param = some r ∧ lowest ≤ r

/-- The node at a place is that of a value, and its part of the block starts where it is told. -/
structure NodeFor (t : Tree) (r : Nat) (head : Handle) (n : Node) (i : Nat)
    (start : Storage → Nat) (p : Parameter) : Prop where
  node? : t.node? ⟨i⟩ = some p
  node : p.node = n
  root : p.root = r
  top : p.top = head
  slice : ∀ k : Storage, k.slice p = ⟨start k, (n.data k).length⟩
  bytes : p.bytes = Growth.sizeOfNode n (p.members.map t.bytesAt)
  states : t.Assigned (i + 1) (r + 1) n.states p.states

/-- Values stand from a place to another, one after the other. The node of a value comes first, and
its parts follow; they have the parts of the block of the root in the same order. -/
inductive Stands (t : Tree) (r : Nat) (head : Handle) :
    List Node → Nat → (Storage → Nat) → List Handle → Nat → Prop
  | nil {i : Nat} {start : Storage → Nat} : Stands t r head [] i start [] i
  | cons {n : Node} {rest : List Node} {i inner next stop : Nat} {start : Storage → Nat}
      {p : Parameter} {hs : List Handle} : t.NodeFor r head n i start p →
      Stands t r head n.children (i + 1) start p.members inner → inner ≤ next →
      Stands t r head rest next (fun k => start k + (n.data k).length) hs stop →
      Stands t r head (n :: rest) i start (⟨i⟩ :: hs) stop

variable {t t' : Tree} {r : Nat} {head : Handle}

lemma value?_of_node? {h : Handle} {p : Parameter} (hp : t.node? h = some p) :
    t.value? h = some p.node := by
  rw [value?, hp]
  rfl

lemma Assigned.nil (t : Tree) (first lowest : Nat) : t.Assigned first lowest [] [] :=
  ⟨rfl, nofun, nofun⟩

lemma Assigned.mono {first first' lowest lowest' : Nat} {states : List (Assignment Node)}
    {entries : List StateEntry} (h : t.Assigned first lowest states entries)
    (hfirst : first' ≤ first) (hlowest : lowest' ≤ lowest) :
    t.Assigned first' lowest' states entries :=
  ⟨h.values, fun s hs => Nat.le_trans hfirst (h.later s hs), fun s hs =>
    (h.apart s hs).imp fun _ hr => ⟨hr.1, Nat.le_trans hlowest hr.2⟩⟩

/-- From one tree to another the nodes from a place on keep their values and their roots. -/
structure KeepsFrom (i : Nat) (t t' : Tree) : Prop where
  value? : ∀ h n, i ≤ h.index → t.value? h = some n → t'.value? h = some n
  root? : ∀ h r, i ≤ h.index → t.root? h = some r → t'.root? h = some r

lemma KeepsFrom.mono {i j : Nat} (h : KeepsFrom i t t') (hle : i ≤ j) : KeepsFrom j t t' :=
  ⟨fun _ _ hj => h.value? _ _ (Nat.le_trans hle hj),
    fun _ _ hj => h.root? _ _ (Nat.le_trans hle hj)⟩

/-- Entries stay assigned whatever their sources are. -/
lemma Assigned.congr {first lowest : Nat} {states : List (Assignment Node)}
    {entries entries' : List StateEntry} (h : t.Assigned first lowest states entries)
    (hbare : entries'.map StateEntry.bare = entries.map StateEntry.bare)
    (hkeeps : KeepsFrom first t t') : t'.Assigned first lowest states entries' := by
  have hmem : ∀ s' ∈ entries', ∃ s ∈ entries, s.param = s'.param := fun s' hs' => by
    have hmem := List.mem_map_of_mem (f := StateEntry.bare) hs'
    rw [hbare] at hmem
    obtain ⟨s, hs, heq⟩ := List.mem_map.1 hmem
    exact ⟨s, hs, show s.bare.param = s'.bare.param from congrArg _ heq⟩
  refine ⟨?_, fun s' hs' => ?_, fun s' hs' => ?_⟩
  · have hsame := congrArg (List.map fun s => (s.operation, s.index, t'.value? s.param)) hbare
    rw [List.map_map, List.map_map] at hsame
    refine hsame.trans (Eq.trans (List.map_congr_left fun s hs => ?_) h.values)
    have hvalue := List.mem_map_of_mem (f := fun s => (s.operation, s.index, t.value? s.param)) hs
    rw [h.values] at hvalue
    obtain ⟨a, -, ha⟩ := List.mem_map.1 hvalue
    simp only [Prod.mk.injEq] at ha
    have hkept := hkeeps.value? s.param a.value (h.later s hs) ha.2.2.symm
    simp only [Function.comp_apply, StateEntry.bare, hkept, ha.2.2]
  · obtain ⟨s, hs, heq⟩ := hmem s' hs'
    exact heq ▸ h.later s hs
  · obtain ⟨s, hs, heq⟩ := hmem s' hs'
    obtain ⟨r', hr', hle⟩ := h.apart s hs
    exact ⟨r', heq ▸ hkeeps.root? s.param r' (h.later s hs) hr', hle⟩

/-- From one tree to another the nodes of a root from a place on change at most in annotations and
in sources of states. -/
def KeepsNodes (r i : Nat) (t t' : Tree) : Prop :=
  ∀ h p, i ≤ h.index → t.node? h = some p → p.root = r →
    ∃ p', t'.node? h = some p' ∧ p'.bare = { p.bare with annotations := p'.annotations }

lemma NodeFor.congr {n : Node} {i : Nat} {start : Storage → Nat} {p : Parameter}
    (h : t.NodeFor r head n i start p)
    (hnodes : KeepsNodes r i t t') (hkeeps : KeepsFrom i t t')
    (hmembers : ∀ j ∈ p.members, i ≤ j.index ∧ ∃ q, t.node? j = some q ∧ q.root = r) :
    ∃ p', t'.NodeFor r head n i start p' ∧ p'.members = p.members := by
  obtain ⟨p', hp', hbare⟩ := hnodes ⟨i⟩ p (Nat.le_refl i) h.node? h.root
  simp only [Parameter.bare, Parameter.mk.injEq] at hbare
  obtain ⟨hnode, hmembers', -, -, hbytes, hroot, htop, hwords, hobjects, hstates⟩ := hbare
  refine ⟨p', ⟨hp', hnode.trans h.node, hroot.trans h.root, htop.trans h.top, fun k => ?_, ?_,
    h.states.congr hstates (hkeeps.mono (Nat.le_succ i))⟩, hmembers'⟩
  · rw [← h.slice k]
    cases k
    · exact hwords
    · exact hobjects
  · rw [hbytes, h.bytes, hmembers']
    refine congrArg _ (List.map_congr_left fun j hj => ?_)
    obtain ⟨hle, q, hq, hroot⟩ := hmembers j hj
    obtain ⟨q', hq', hbare⟩ := hnodes j q hle hq hroot
    simp only [Parameter.bare, Parameter.mk.injEq] at hbare
    rw [bytesAt, bytesAt, hq, hq', Option.map_some, Option.map_some, hbare.2.2.2.2.1]

namespace Stands

variable {ns : List Node} {i stop : Nat} {start : Storage → Nat} {hs : List Handle}

lemma le (h : t.Stands r head ns i start hs stop) : i ≤ stop := by
  induction h with
  | nil => exact Nat.le_refl _
  | cons => omega

/-- The nodes of the values are in the tree. -/
lemma exists_node? (h : t.Stands r head ns i start hs stop) :
    ∀ j ∈ hs, i ≤ j.index ∧ ∃ q, t.node? j = some q ∧ q.root = r := by
  induction h with
  | nil => exact fun j hj => by cases hj
  | @cons n rest i inner next stop start p hs hnode hinner hnext _ _ ih =>
    have hle := hinner.le
    intro j hj
    rcases List.mem_cons.1 hj with rfl | hj
    · exact ⟨Nat.le_refl _, p, hnode.node?, hnode.root⟩
    · exact ⟨by have := (ih j hj).1; omega, (ih j hj).2⟩

/-- What stands stays if its nodes are kept. -/
lemma congr (h : t.Stands r head ns i start hs stop) (hnodes : KeepsNodes r i t t')
    (hkeeps : KeepsFrom i t t') : t'.Stands r head ns i start hs stop := by
  induction h with
  | nil => exact .nil
  | @cons n rest i inner next stop start p hs hnode hinner hnext hrest ih ih' =>
    have hle := hinner.le
    obtain ⟨p', hnode', hmembers⟩ := hnode.congr hnodes hkeeps fun j hj =>
      (hinner.exists_node? j hj).imp_left fun h => Nat.le_of_succ_le h
    have hinner' := ih (fun h p hh => hnodes h p (by omega)) (hkeeps.mono (by omega))
    rw [← hmembers] at hinner'
    exact .cons hnode' hinner' hnext
      (ih' (fun h p hh => hnodes h p (by omega)) (hkeeps.mono (by omega)))

end Stands

end Tree

namespace Growth

variable {g g' g'' : Growth} {params params' : List Handle} {entries entries' : List StateEntry}
  {R S : Nat → Prop} {root : Nat} {node : Node} {top : Option Handle} {flags : UInt32}
  {members : List Handle} {before between after : Contents}

/-! ### Nodes that stay -/

lemma Grown.value? (hg : Grown g params entries R g') {h : Handle} {n : Node}
    (hn : g.tree.value? h = some n) : g'.tree.value? h = some n := by
  obtain ⟨p, hp, rfl⟩ := Option.map_eq_some_iff.1 hn
  exact Tree.value?_of_node? (hg.node?_of_some hp)

lemma Grown.keepsFrom (hg : Grown g params entries R g') (i : Nat) :
    Tree.KeepsFrom i g.tree g'.tree :=
  ⟨fun _ _ _ hn => hg.value? hn, fun _ _ _ hr => hg.root?_eq hr⟩

/-- What stands stays when a tree grows. -/
lemma Grown.stands (hg : Grown g params entries R g') {r : Nat} {head : Handle} {ns : List Node}
    {i stop : Nat} {start : Storage → Nat} {hs : List Handle}
    (h : g.tree.Stands r head ns i start hs stop) : g'.tree.Stands r head ns i start hs stop :=
  h.congr (fun _ p _ hp _ => ⟨p, hg.node?_of_some hp, rfl⟩) (hg.keepsFrom i)

/-! ### Roots that are raised -/

/-- The slots of a root that wait for objects. -/
def waiting (g : Growth) (r : Nat) : List Pending := g.pending.toList.filter (·.root = r)

/-- Slots of a root from one on, that wait for the objects of some numbers. -/
def slotsFrom (r start : Nat) (ids : List UInt32) : List Pending :=
  (ids.zipIdx start).map fun (id, j) => ⟨r, j, id⟩

lemma slotsFrom_append (r start : Nat) (ids more : List UInt32) :
    slotsFrom r start (ids ++ more) =
      slotsFrom r start ids ++ slotsFrom r (start + ids.length) more := by
  simp only [slotsFrom, List.zipIdx_append, List.map_append]

/-- A root is that of a value that stands: it holds what the leaves of the value keep, and its slots
wait for their objects. -/
def IsRaised (g : Growth) (r : Nat) : Prop :=
  ∃ n i stop, g.tree.Stands r ⟨i⟩ [n] i (fun _ => 0) [⟨i⟩] stop ∧
    g.initial[r]? = some (({} : Contents).extended n.data) ∧
    g.waiting r = slotsFrom r 0 (n.data .objects)

/-- No slot of a root that was not numbered waits. -/
def Clean (g : Growth) : Prop := ∀ r, g.initial.size ≤ r → g.waiting r = []

/-- From one tree to another roots were raised, and of others only those in `R` were touched. -/
structure Raises (R : Nat → Prop) (g g' : Growth) : Prop where
  raised : g.Clean → ∀ r, g.initial.size ≤ r → r < g'.initial.size → g'.IsRaised r
  initial : ∀ r < g.initial.size, g'.initial[r]? = g.initial[r]?
  waiting : ∀ r, ¬R r → r < g.initial.size ∨ g'.initial.size ≤ r → g'.waiting r = g.waiting r

lemma IsRaised.grown {r : Nat} (h : g.IsRaised r) (hg : Grown g params entries R g')
    (hinitial : g'.initial[r]? = g.initial[r]?) (hwaiting : g'.waiting r = g.waiting r) :
    g'.IsRaised r := by
  obtain ⟨n, i, stop, hstands, hcontents, hslots⟩ := h
  exact ⟨n, i, stop, hg.stands hstands, hinitial.trans hcontents, hwaiting.trans hslots⟩

namespace Raises

lemma refl (R : Nat → Prop) (g : Growth) : Raises R g g where
  raised _ r hlow hhigh := by omega
  initial _ _ := rfl
  waiting _ _ _ := rfl

lemma clean (h : Raises R g g') (hg : Grown g params entries S g')
    (hR : ∀ r, R r → r < g.initial.size) (hclean : g.Clean) : g'.Clean := fun r hr => by
  have hle := Nat.le_trans hg.size_initial hr
  rw [h.waiting r (fun hRr => by have := hR r hRr; omega) (.inr hr)]
  exact hclean r hle

lemma trans (h : Raises R g g') (hg : Grown g params entries S g')
    (hg' : Grown g' params' entries' S g'') (h' : Raises R g' g'')
    (hR : ∀ r, R r → r < g.initial.size) : Raises R g g'' where
  raised hclean r hlow hhigh := by
    by_cases hr : r < g'.initial.size
    · exact (h.raised hclean r hlow hr).grown hg' (h'.initial r hr)
        (h'.waiting r (fun hRr => by have := hR r hRr; omega) (.inl hr))
    · exact h'.raised (h.clean hg hR hclean) r (Nat.le_of_not_lt hr) hhigh
  initial r hr := (h'.initial r (Nat.lt_of_lt_of_le hr hg.size_initial)).trans (h.initial r hr)
  waiting r hRr hr := by
    have hsize := hg.size_initial
    have hsize' := hg'.size_initial
    exact (h'.waiting r hRr (by omega)).trans (h.waiting r hRr (by omega))

end Raises

/-! ### Nodes and roots -/

/-- A node is not made from another value, nor put under another root, when its place is filled. -/
lemma keepsFrom_finish (hg : Grown (reserve node root top flags g).2 params entries' R g')
    (i : Nat) : Tree.KeepsFrom i g'.tree
      (finish ⟨g.nodes.size⟩ node members entries before after g').2.tree := by
  refine ⟨fun h n _ hn => ?_, fun h r _ hr => ?_⟩
  · obtain ⟨p, hp, rfl⟩ := Option.map_eq_some_iff.1 hn
    obtain ⟨p', hp', hnode, -⟩ := exists_kept_finish entries members before after hg hp
    exact hnode ▸ Tree.value?_of_node? hp'
  · obtain ⟨p, hp, rfl⟩ := Option.map_eq_some_iff.1 hr
    obtain ⟨p', hp', -, hroot, -⟩ := exists_kept_finish entries members before after hg hp
    exact Option.map_eq_some_iff.2 ⟨p', hp', hroot⟩

lemma Raises.finish (hroot : root < g.initial.size)
    (hg : Grown (reserve node root top flags g).2 params entries' S g')
    (h : Raises R (reserve node root top flags g).2 g') :
    Raises R g (finish ⟨g.nodes.size⟩ node members entries before after g').2 where
  raised hclean r hlow hhigh := by
    obtain ⟨n, i, stop, hstands, hcontents, hslots⟩ := h.raised hclean r hlow hhigh
    refine ⟨n, i, stop, hstands.congr (fun j p _ hp hr => ⟨p, ?_, rfl⟩) (keepsFrom_finish hg i),
      hcontents, hslots⟩
    -- The node is under another root.
    refine (node?_finish_of_ne fun hj => ?_).trans hp
    obtain rfl : j = ⟨g.nodes.size⟩ := congrArg Handle.mk hj
    obtain rfl := Option.some.inj ((node?_reserve hg).symm.trans hp)
    have hr : root = r := hr
    omega
  initial := h.initial
  waiting := h.waiting

/-- From one tree to another values were added that stand behind what was there, and what their
leaves keep was put behind contents. -/
structure StandsOn (g : Growth) (root : Nat) (top : Handle) (ns : List Node) (before : Contents)
    (hs : List Handle) (after : Contents) (g' : Growth) : Prop where
  stands : g'.tree.Stands root top ns g.nodes.size (fun k => k.size before) hs g'.nodes.size
  contents : after = before.extended (Node.dataOf ns)
  waiting : g'.waiting root =
    g.waiting root ++ slotsFrom root before.objects.size (Node.dataOf ns .objects)
  raises : Raises (· = root) g g'

lemma StandsOn.nil (g : Growth) (root : Nat) (top : Handle) (before : Contents) :
    StandsOn g root top [] before [] before g where
  stands := .nil
  contents := (Contents.extended_nil before).symm
  waiting := (List.append_nil _).symm
  raises := .refl _ g

/-- What is added in two parts stands one after the other. -/
lemma StandsOn.cons {head : Handle} {rest : List Node} {hs : List Handle}
    (hroot : root < g.initial.size)
    (h : StandsOn g root head [node] before [⟨g.nodes.size⟩] between g')
    (hg : Grown g params entries R g') (hg' : Grown g' params' entries' R g'')
    (h' : StandsOn g' root head rest between hs after g'') :
    StandsOn g root head (node :: rest) before (⟨g.nodes.size⟩ :: hs) after g'' where
  stands := by
    have hrest := h'.stands
    simp only [h.contents, Contents.size_extended, Node.dataOf_cons, Node.dataOf_nil,
      List.append_nil] at hrest
    cases hg'.stands h.stands with
    | cons hnode hinner hnext hnil =>
      cases hnil
      exact .cons hnode hinner hnext hrest
  contents := by
    rw [h'.contents, h.contents, Contents.extended_extended, Node.dataOf_singleton]
    exact congrArg _ (funext fun k => (Node.dataOf_cons node rest k).symm)
  waiting := by
    have hsize : between.objects.size = before.objects.size + (node.data .objects).length := by
      rw [h.contents, Node.dataOf_singleton]
      exact before.size_extended node.data .objects
    rw [h'.waiting, h.waiting, hsize, Node.dataOf_singleton, List.append_assoc,
      Node.dataOf_cons, slotsFrom_append]
  raises := h.raises.trans hg hg' h'.raises fun r hr => hr ▸ hroot

/-- A node whose place is filled stands before its parts. -/
lemma StandsOn.finish {inner : Nat} (hroot : root < g.initial.size)
    (hg : Grown (reserve node root top flags g).2 params entries' S g')
    (hinner : g'.tree.Stands root (top.getD ⟨g.nodes.size⟩) node.children (g.nodes.size + 1)
      (fun k => k.size before) members inner) (hstop : inner ≤ g'.nodes.size)
    (hstates : g'.tree.Assigned (g.nodes.size + 1) (root + 1) node.states entries)
    (hcontents : after = before.extended node.data)
    (hwaiting : g'.waiting root =
      g.waiting root ++ slotsFrom root before.objects.size (node.data .objects))
    (hraises : Raises (· = root) (reserve node root top flags g).2 g') :
    StandsOn g root (top.getD ⟨g.nodes.size⟩) [node] before [⟨g.nodes.size⟩] after
      (Growth.finish ⟨g.nodes.size⟩ node members entries before after g').2 where
  stands := by
    have hself := node?_finish_self entries members before after hg
    have hother : ∀ j : Handle, g.nodes.size + 1 ≤ j.index →
        (Growth.finish ⟨g.nodes.size⟩ node members entries before after g').2.tree.node? j =
          g'.tree.node? j := fun j hj => node?_finish_of_ne (by omega)
    have hinner' := hinner.congr (fun j p hj hp _ => ⟨p, (hother j hj).trans hp, rfl⟩)
      (keepsFrom_finish hg _)
    refine .cons ⟨hself, rfl, rfl, rfl, fun k => ?_, ?_, hstates.congr rfl (keepsFrom_finish hg _)⟩
      hinner' (Nat.le_trans hstop (Nat.le_of_eq Array.size_modify.symm)) .nil
    · have hsize := before.size_extended node.data k
      rw [← hcontents] at hsize
      rw [← Nat.add_sub_cancel_left (k.size before) (node.data k).length, ← hsize]
      cases k <;> rfl
    · refine congrArg (sizeOfNode node) (List.map_congr_left fun j hj => ?_)
      rw [Tree.bytesAt, hother j (hinner.exists_node? j hj).1]
      rfl
  contents := by rw [hcontents, Node.dataOf_singleton]
  waiting := by
    rw [Node.dataOf_singleton]
    exact hwaiting
  raises := hraises.finish hroot hg

/-- A root that is numbered is raised when its value stands and its contents are set. -/
lemma StandsOn.newRoot (hg : Grown (newRoot g).2 params entries R g')
    (h : StandsOn (Growth.newRoot g).2 g.initial.size ⟨g.nodes.size⟩ [node] {} [⟨g.nodes.size⟩]
      after g') : Raises (fun _ => False) g (setRoot g.initial.size after g').2 := by
  have hnumbered := size_initial_newRoot g
  have hsize := hg.size_initial
  have hset : (setRoot g.initial.size after g').2.initial.size = g'.initial.size :=
    Array.size_setIfInBounds ..
  have hother : ∀ r, r ≠ g.initial.size →
      (setRoot g.initial.size after g').2.initial[r]? = g'.initial[r]? := fun r hr =>
    Array.getElem?_setIfInBounds_ne hr.symm
  refine ⟨fun hclean r hlow hhigh => ?_, fun r hr => ?_, fun r _ hr => ?_⟩
  · by_cases hr : r = g.initial.size
    · subst hr
      refine ⟨node, g.nodes.size, g'.nodes.size, ?_, ?_, ?_⟩
      · have hstart : (fun k : Storage => k.size {}) = fun _ => 0 :=
          funext fun k => by cases k <;> rfl
        have hstands := h.stands
        rw [hstart] at hstands
        exact hstands.congr (fun j p _ hp _ => ⟨p, hp, rfl⟩)
          ⟨fun _ _ _ hn => hn, fun _ _ _ hr => hr⟩
      · rw [← Node.dataOf_singleton, ← h.contents]
        exact Array.getElem?_setIfInBounds_self_of_lt (by omega)
      · have hempty : (Growth.newRoot g).2.waiting g.initial.size = [] :=
          hclean _ (Nat.le_refl _)
        rw [← Node.dataOf_singleton, ← List.nil_append (slotsFrom ..), ← hempty]
        exact h.waiting
    · have hclean' : (Growth.newRoot g).2.Clean := fun r hr => hclean r (by omega)
      obtain ⟨n, i, stop, hstands, hcontents, hslots⟩ :=
        h.raises.raised hclean' r (by omega) (by omega)
      exact ⟨n, i, stop, hstands.congr (fun j p _ hp _ => ⟨p, hp, rfl⟩)
        ⟨fun _ _ _ hn => hn, fun _ _ _ hr => hr⟩, (hother r hr).trans hcontents, hslots⟩
  · rw [hother r (by omega), h.raises.initial r (by omega)]
    exact Array.getElem?_push_lt hr ▸ (Array.getElem?_eq_getElem hr).symm
  · exact h.raises.waiting r (by omega) (by omega)

/-- A slot that waits is one of its root. -/
lemma raises_await (root slot : Nat) (id : UInt32) (g : Growth) :
    Raises (· = root) g (await root slot id g).2 ∧
      (await root slot id g).2.waiting root = g.waiting root ++ slotsFrom root slot [id] := by
  have hwaiting : ∀ r, (await root slot id g).2.waiting r =
      g.waiting r ++ if root = r then [⟨root, slot, id⟩] else [] := fun r => by
    show (g.pending.push ⟨root, slot, id⟩).toList.filter _ = _
    rw [Array.toList_push, List.filter_append, List.filter_singleton]
    simp [waiting]
  refine ⟨⟨fun _ r hlow hhigh => ?_, fun _ _ => rfl, fun r hr _ => ?_⟩, ?_⟩
  · have hhigh : r < g.initial.size := hhigh
    omega
  · rw [hwaiting, if_neg (Ne.symm hr), List.append_nil]
  · rw [hwaiting, if_pos rfl]
    rfl

/-! ### Adding values -/

mutual

/-- To add a value is to let it stand behind what was there. -/
lemma standsOn_addNode (root : Nat) (top : Option Handle) (flags : UInt32) (node : Node)
    (before : Contents) (g : Growth) (hroot : root < g.initial.size) :
    StandsOn g root (top.getD ⟨g.nodes.size⟩) [node] before [⟨g.nodes.size⟩]
      (addNode root top flags node before g).1.2 (addNode root top flags node before g).2 := by
  have hrefl : Grown (reserve node root top flags g).2 [] [] (fun _ => False)
      (reserve node root top flags g).2 := .refl _ _
  have hreserved := size_nodes_reserve node root top flags g
  cases node with
  | array d elements =>
    have h := standsOn_addNodes root (top.getD ⟨g.nodes.size⟩) flags elements before
      (reserve (.array d elements) root top flags g).2 hroot
    have hgrown := (grown_addNodes root (top.getD ⟨g.nodes.size⟩) flags elements before
      (reserve (.array d elements) root top flags g).2).1
    rw [addNode]
    exact .finish hroot hgrown (hreserved ▸ h.stands) (Nat.le_refl _) (.nil ..) h.contents
      h.waiting h.raises
  | struct d fields =>
    have h := standsOn_addNodes root (top.getD ⟨g.nodes.size⟩) flags fields before
      (reserve (.struct d fields) root top flags g).2 hroot
    have hgrown := (grown_addNodes root (top.getD ⟨g.nodes.size⟩) flags fields before
      (reserve (.struct d fields) root top flags g).2).1
    rw [addNode]
    exact .finish hroot hgrown (hreserved ▸ h.stands) (Nat.le_refl _) (.nil ..) h.contents
      h.waiting h.raises
  | words d ws =>
    rw [addNode]
    refine .finish hroot hrefl .nil (Nat.le_of_eq hreserved.symm) (.nil ..) ?_ ?_ (.refl _ _)
    · exact (before.extended_words d ws).symm
    · exact (List.append_nil _).symm
  | object d id =>
    let reserved := (reserve (.object d id) root top flags g).2
    have hawait := grown_await root before.objects.size id reserved fun _ => False
    obtain ⟨hraises, hwaiting⟩ := raises_await root before.objects.size id reserved
    rw [addNode]
    refine .finish hroot hawait .nil (Nat.le_of_eq hreserved.symm) (.nil ..) ?_ hwaiting hraises
    exact (before.extended_object d id).symm
  | sampler d states =>
    obtain ⟨hraises, hassigned⟩ :=
      raises_addStates states (reserve (.sampler d states) root top flags g).2
    have hgrown := grown_addStates states (reserve (.sampler d states) root top flags g).2
    have hwaiting := hraises.waiting root not_false (.inl hroot)
    rw [addNode]
    refine .finish hroot hgrown .nil ?_ (hassigned.mono (Nat.le_of_eq hreserved.symm) hroot) ?_ ?_
      ⟨hraises.raised, hraises.initial, fun r hr => hraises.waiting r not_false⟩
    · exact Nat.le_trans (Nat.le_of_eq hreserved.symm) hgrown.size_nodes
    · exact (before.extended_sampler d states).symm
    · exact hwaiting.trans (List.append_nil _).symm
  | unsupported d =>
    rw [addNode]
    refine .finish hroot hrefl .nil (Nat.le_of_eq hreserved.symm) (.nil ..) ?_ ?_ (.refl _ _)
    · exact (before.extended_unsupported d).symm
    · exact (List.append_nil _).symm

lemma standsOn_addNodes (root : Nat) (top : Handle) (flags : UInt32) (nodes : List Node)
    (before : Contents) (g : Growth) (hroot : root < g.initial.size) :
    StandsOn g root top nodes before (addNodes root top flags nodes before g).1.1
      (addNodes root top flags nodes before g).1.2
      (addNodes root top flags nodes before g).2 := by
  cases nodes with
  | nil => exact .nil g root top before
  | cons node rest =>
    let added := addNode root (some top) flags node before g
    have hgrown := (grown_addNode root (some top) flags node before g).1
    have hgrown' := (grown_addNodes root top flags rest added.1.2 added.2).1
    have hfirst := standsOn_addNode root (some top) flags node before g hroot
    have hrest := standsOn_addNodes root top flags rest added.1.2 added.2
      (Nat.lt_of_lt_of_le hroot hgrown.size_initial)
    have h := hfirst.cons hroot hgrown hgrown' hrest
    rw [← addNode_handle root (some top) flags node before g] at h
    rw [addNodes]
    exact h

/-- The values of states are roots that are raised. -/
lemma raises_addStates (states : List (Assignment Node)) (g : Growth) :
    Raises (fun _ => False) g (addStates states g).2 ∧
      (addStates states g).2.tree.Assigned g.nodes.size g.initial.size states
        (addStates states g).1 := by
  cases states with
  | nil => exact ⟨.refl _ g, .nil ..⟩
  | cons state rest =>
    obtain ⟨operation, index, value⟩ := state
    let added := addNode g.initial.size none 0 value {} (newRoot g).2
    have hvalue := grown_addNode g.initial.size none 0 value {} (newRoot g).2
    have hentry := hvalue.1.entry operation index added.1.2 hvalue.2
    have hgrown := grown_addStates rest (setRoot g.initial.size added.1.2 added.2).2
    have hstands := standsOn_addNode g.initial.size none 0 value {} (newRoot g).2
      (lt_size_newRoot g)
    obtain ⟨hraises, hassigned⟩ :=
      raises_addStates rest (setRoot g.initial.size added.1.2 added.2).2
    rw [addStates]
    refine ⟨(hstands.newRoot hvalue.1).trans hentry hgrown hraises fun _ h => h.elim, ?_⟩
    have hhead : added.2.tree.value? added.1.1 = some value := by
      rw [addNode_handle]
      cases hstands.stands with
      | cons hnode _ _ _ => exact hnode.node ▸ Tree.value?_of_node? hnode.node?
    have hroots := hentry.size_initial
    have hnodes := hentry.size_nodes
    have hassigned := hassigned.mono hnodes hroots
    refine ⟨congrArg₂ List.cons ?_ hassigned.values, List.forall_mem_cons.2 ⟨?_, hassigned.later⟩,
      List.forall_mem_cons.2 ⟨⟨_, hgrown.root?_eq hvalue.2, Nat.le_refl _⟩, hassigned.apart⟩⟩
    · exact congrArg (operation, index, ·) (hgrown.value? hhead)
    · have hhandle := addNode_handle g.initial.size none 0 value {} (newRoot g).2
      exact Nat.le_of_eq (congrArg Handle.index hhandle).symm

end

end Growth

end ShaderEffect
