import Mathlib.Tactic.Lemma
import ShaderEffect.Image.Decode

/-!
# Well-formed images

Stored data is untrusted, and all later work relies on the images that are read from it: an array
has the elements it declares, leaves have as many words as their shape says, numbers of objects and
of state operations exist, and trees are neither too deep nor too large (`Image.WellFormed`).
-/

namespace ShaderEffect

/-! ### Places of nodes -/

/-- Where a node stands in an image. -/
structure Place where
  /-- How many lists of sampler states are around the node. -/
  samplers : Nat := 0
  /-- Whether the node is under a state of a pass. -/
  inPass : Bool := false
  /-- How many structs of the same parameter, annotation or state value are around the node. -/
  structs : Nat := 0

namespace Place

/-- The depth of a place: a sampler counts twice, for its states and for their values. -/
def depth (p : Place) : Nat := 2 * p.samplers + p.inPass.toNat + p.structs

/-- The place of the members of a struct. -/
def member (p : Place) : Place := { p with structs := p.structs + 1 }

/-- The place of the values of a sampler's states. -/
def state (p : Place) : Place := { p with samplers := p.samplers + 1, structs := 0 }

@[simp] lemma depth_member (p : Place) : p.member.depth = p.depth + 1 := rfl

lemma depth_state (p : Place) (h : p.structs = 0) : p.state.depth = p.depth + 2 := by
  simp only [depth, state, h]
  omega

end Place

/-- A node at a place contains itself, and what its elements, members and states contain. -/
inductive Node.Contains : Node → Place → Node → Place → Prop
  | self {n : Node} {p : Place} : Contains n p n p
  | element {d : Declaration} {elements : List Node} {e n : Node} {p q : Place} :
      e ∈ elements → Contains e p n q → Contains (.array d elements) p n q
  | member {d : Declaration} {members : List Node} {m n : Node} {p q : Place} :
      m ∈ members → Contains m p.member n q → Contains (.struct d members) p n q
  | state {d : Declaration} {states : List (Assignment Node)} {s : Assignment Node} {n : Node}
      {p q : Place} : s ∈ states → Contains s.value p.state n q →
      Contains (.sampler d states) p n q

/-- The nodes of an image, each at its place. -/
inductive Image.Contains (im : Image) (n : Node) (q : Place) : Prop
  | parameter {r : ParameterRecord} : r ∈ im.parameters → r.node.Contains {} n q → Contains im n q
  | parameterNote {r : ParameterRecord} {note : Node} : r ∈ im.parameters →
      note ∈ r.annotations → note.Contains {} n q → Contains im n q
  | techniqueNote {t : TechniqueRecord} {note : Node} : t ∈ im.techniques →
      note ∈ t.annotations → note.Contains {} n q → Contains im n q
  | passNote {t : TechniqueRecord} {p : PassRecord} {note : Node} : t ∈ im.techniques →
      p ∈ t.passes → note ∈ p.annotations → note.Contains {} n q → Contains im n q
  | passState {t : TechniqueRecord} {p : PassRecord} {s : Assignment Node} : t ∈ im.techniques →
      p ∈ t.passes → s ∈ p.states → s.value.Contains { inPass := true } n q → Contains im n q

/-! ### Numbers of nodes -/

namespace Node

mutual

/-- The number of nodes of a value, itself included. -/
def count : Node → Nat
  | .array _ elements => countOf elements + 1
  | .struct _ members => countOf members + 1
  | .sampler _ states => countOfStates states + 1
  | .words .. | .object .. | .unsupported _ => 1

/-- The number of nodes of several values. -/
def countOf : List Node → Nat
  | [] => 0
  | n :: rest => n.count + countOf rest

/-- The number of nodes of the values of states. -/
def countOfStates : List (Assignment Node) → Nat
  | [] => 0
  | ⟨_, _, n⟩ :: rest => n.count + countOfStates rest

end

lemma countOf_eq_sum (ns : List Node) : countOf ns = (ns.map count).sum := by
  induction ns with
  | nil => rfl
  | cons n rest ih => rw [countOf, ih, List.map_cons, List.sum_cons]

lemma countOfStates_eq_sum (states : List (Assignment Node)) :
    countOfStates states = (states.map (·.value.count)).sum := by
  induction states with
  | nil => rfl
  | cons s rest ih => rw [countOfStates, ih, List.map_cons, List.sum_cons]

end Node

/-- The number of nodes of a parameter. -/
def ParameterRecord.nodeCount (r : ParameterRecord) : Nat :=
  Node.countOf r.annotations + r.node.count

/-- The number of nodes of a pass. -/
def PassRecord.nodeCount (p : PassRecord) : Nat :=
  Node.countOf p.annotations + Node.countOfStates p.states

/-- The number of nodes of a technique. -/
def TechniqueRecord.nodeCount (t : TechniqueRecord) : Nat :=
  Node.countOf t.annotations + (t.passes.map PassRecord.nodeCount).sum

/-- The number of nodes of an image. -/
def Image.nodeCount (im : Image) : Nat :=
  (im.parameters.map ParameterRecord.nodeCount).sum +
    (im.techniques.map TechniqueRecord.nodeCount).sum

/-! ### Well-formed images -/

/-- A number of rows or columns is one to four. -/
def IsSmall (n : UInt32) : Prop := 1 ≤ n ∧ n ≤ 4

/-- A node is as its declaration says. -/
def Node.Valid (objectCount : UInt32) : Node → Prop
  | .array d elements =>
    0 < d.elements ∧ elements.length = d.elements.toNat ∧ ∀ e ∈ elements, e.decl = d.element
  | .struct d _ => d.elements = 0 ∧ d.cls = .struct ∧ d.type = .void
  | .words d ws =>
    d.elements = 0 ∧ d.cls.isNumeric = true ∧ d.type.isNumeric = true ∧ IsSmall d.rows ∧
      IsSmall d.columns ∧ ws.length = d.rows.toNat * d.columns.toNat
  | .object d id =>
    d.elements = 0 ∧ d.cls = .object ∧ d.type.isObjectSlot = true ∧ d.rows = 0 ∧ d.columns = 0 ∧
      id < objectCount
  | .sampler d states =>
    d.elements = 0 ∧ d.cls = .object ∧ d.type.isSampler = true ∧ d.rows = 0 ∧ d.columns = 0 ∧
      ∀ s ∈ states, s.operation.toNat < StateTable.size
  | .unsupported d =>
    d.elements = 0 ∧ d.cls = .object ∧ d.type = .unsupported ∧ d.rows = 0 ∧ d.columns = 0

/-- An image in which every node is as declared and not too deep, every number exists, and there are
not too many nodes. -/
structure Image.WellFormed (im : Image) : Prop where
  valid : ∀ n p, im.Contains n p → n.Valid im.objectCount
  depth_lt : ∀ n p, im.Contains n p → p.depth < depthLimit
  operations : ∀ t ∈ im.techniques, ∀ p ∈ t.passes, ∀ s ∈ p.states,
    s.operation.toNat < StateTable.size
  objectData : ∀ d ∈ im.objectData, d.id < im.objectCount
  nodeCount_le : im.nodeCount ≤ nodeLimit

/-! ### Declarations -/

/-- Class, type and shape of a declaration agree. -/
structure Declaration.Regular (d : Declaration) : Prop where
  numeric : d.cls.isNumeric = true → d.type.isNumeric = true ∧ IsSmall d.rows ∧ IsSmall d.columns
  object : d.cls = .object → d.type.isNumeric = false ∧ d.rows = 0 ∧ d.columns = 0
  struct : d.cls = .struct → d.type = .void

lemma Declaration.regular_of_isConsistent {d : Declaration} (h : Image.isConsistent d = true)
    (hvector : d.cls = .vector → d.rows = 1) : d.Regular := by
  obtain ⟨name, semantic, cls, type, rows, columns, elements⟩ := d
  cases cls <;> simp only [Image.isConsistent, Bool.and_eq_true, decide_eq_true_eq,
    Bool.not_eq_true', beq_iff_eq] at h
  case vector =>
    obtain rfl : rows = 1 := hvector rfl
    have hone : IsSmall 1 := ⟨by decide, by decide⟩
    exact ⟨fun _ => ⟨h.1, hone, h.2⟩, nofun, nofun⟩
  case object => exact ⟨nofun, fun _ => ⟨h.1.1, h.1.2, h.2⟩, nofun⟩
  case struct => exact ⟨nofun, nofun, fun _ => h⟩
  all_goals exact ⟨fun _ => ⟨h.1.1, h.1.2, h.2⟩, nofun, nofun⟩

lemma Declaration.element_eq_self {d : Declaration} (h : d.elements = 0) : d.element = d := by
  rw [element, ← h]

lemma IsSmall.toNat_mul {m n : UInt32} (hm : IsSmall m) (hn : IsSmall n) :
    (m * n).toNat = m.toNat * n.toNat := by
  have hm' : m.toNat ≤ 4 := UInt32.le_iff_toNat_le.1 hm.2
  have hn' : n.toNat ≤ 4 := UInt32.le_iff_toNat_le.1 hn.2
  have hmul : m.toNat * n.toNat ≤ 4 * 4 := Nat.mul_le_mul hm' hn'
  rw [UInt32.toNat_mul, Nat.mod_eq_of_lt (by omega)]

lemma ParameterType.isObjectSlot_of_not {t : ParameterType} (hnumeric : t.isNumeric = false)
    (hsampler : t.isSampler = false) (hunsupported : t ≠ .unsupported) : t.isObjectSlot = true := by
  cases t <;> first
    | rfl
    | exact absurd hnumeric (by decide)
    | exact absurd hsampler (by decide)
    | exact absurd rfl hunsupported

end ShaderEffect
