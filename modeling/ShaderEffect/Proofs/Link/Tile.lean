import Mathlib.Data.List.Pairwise
import ShaderEffect.Effect.Pool
import ShaderEffect.Proofs.Image.Sound
import ShaderEffect.Proofs.Storage

/-!
# Leaves

A root keeps the values of its leaves one after the other, in tree order. What a leaf takes of a
block is said by its shape alone, and the shapes of a value and all its parts say which leaves it
has, though not how they are grouped (`Node.tiles_eq_filterMap_shapes`). So values of the same
shapes keep the same leaves at the same places.
-/

namespace ShaderEffect

/-- A leaf: its shape, and how many words and object slots it takes. -/
@[ext]
structure Tile where
  shape : NodeShape
  words : Nat
  objects : Nat

namespace Storage

/-- What a leaf takes. -/
def need : Storage → Tile → Nat
  | words, l => l.words
  | objects, l => l.objects

/-- What leaves take together. -/
def total (k : Storage) (ls : List Tile) : Nat := (ls.map k.need).sum

variable (k : Storage)

@[simp] lemma total_nil : k.total [] = 0 := rfl

@[simp] lemma total_cons (l : Tile) (ls : List Tile) : k.total (l :: ls) = k.need l + k.total ls :=
  rfl

@[simp] lemma total_append (ls ls' : List Tile) :
    k.total (ls ++ ls') = k.total ls + k.total ls' := by
  rw [total, List.map_append, List.sum_append]
  rfl

end Storage

/-! ### Places of leaves -/

namespace Storage

variable (k : Storage)

/-- Leaves with their parts of a block, one after the other from a place on. -/
def spots : List Tile → Nat → List (NodeShape × Slice)
  | [], _ => []
  | l :: rest, start => (l.shape, ⟨start, k.need l⟩) :: spots rest (start + k.need l)

lemma spots_append (ls ls' : List Tile) (start : Nat) :
    k.spots (ls ++ ls') start = k.spots ls start ++ k.spots ls' (start + k.total ls) := by
  induction ls generalizing start with
  | nil => rfl
  | cons l rest ih =>
    rw [List.cons_append, spots, spots, ih, total_cons, Nat.add_assoc, List.cons_append]

variable {k}

lemma bounds_of_mem_spots {ls : List Tile} {start : Nat} {x : NodeShape × Slice}
    (hx : x ∈ k.spots ls start) : start ≤ x.2.start ∧ x.2.stop ≤ start + k.total ls := by
  induction ls generalizing start with
  | nil => cases hx
  | cons l rest ih =>
    rw [total_cons]
    rcases List.mem_cons.1 hx with rfl | hx
    · exact ⟨Nat.le_refl _, by simp only [Slice.stop]; omega⟩
    · have := ih hx
      omega

lemma pairwise_spots (ls : List Tile) (start : Nat) :
    (k.spots ls start).Pairwise fun x y => x.2.stop ≤ y.2.start := by
  induction ls generalizing start with
  | nil => exact .nil
  | cons l rest ih => exact (ih _).cons fun x hx => (bounds_of_mem_spots hx).1

/-- Leaves are determined by their parts of words and of object slots. -/
lemma eq_of_spots_eq {ls ls' : List Tile} {start : Storage → Nat}
    (h : ∀ k, spots k ls (start k) = spots k ls' (start k)) : ls = ls' := by
  induction ls generalizing ls' start with
  | nil =>
    cases ls' with
    | nil => rfl
    | cons l' rest' => cases h words
  | cons l rest ih =>
    cases ls' with
    | nil => cases h words
    | cons l' rest' =>
      have hhead : ∀ k : Storage, l.shape = l'.shape ∧ k.need l = k.need l' := fun k => by
        have hspot := (List.cons.inj (h k)).1
        rw [Prod.mk.injEq, Slice.mk.injEq] at hspot
        exact ⟨hspot.1, hspot.2.2⟩
      have hrest : rest = rest' := by
        apply @ih rest' fun k => start k + k.need l
        intro k
        have htail := (List.cons.inj (h k)).2
        rwa [← (hhead k).2] at htail
      rw [hrest, Tile.ext (hhead words).1 (hhead words).2 (hhead objects).2]

/-- Every place is in the part of some leaf. -/
lemma exists_mem_spots {ls : List Tile} {start j : Nat} (hlow : start ≤ j)
    (hhigh : j < start + k.total ls) : ∃ x ∈ k.spots ls start, x.2.Has j := by
  induction ls generalizing start with
  | nil =>
    rw [total_nil] at hhigh
    omega
  | cons l rest ih =>
    rw [total_cons] at hhigh
    by_cases hj : j < start + k.need l
    · exact ⟨_, List.mem_cons_self, hlow, hj⟩
    · obtain ⟨x, hx, hhas⟩ := @ih (start + k.need l) (by omega) (by omega)
      exact ⟨x, List.mem_cons_of_mem _ hx, hhas⟩

end Storage

/-! ### Leaves of values -/

namespace Node

/-- Whether a value has no parts. -/
def isLeaf : Node → Bool
  | .array .. | .struct .. => false
  | _ => true

mutual

/-- The leaves of a value, in tree order. -/
def tiles : Node → List Tile
  | .array _ elements => tilesOf elements
  | .struct _ members => tilesOf members
  | .words d ws => [⟨d.shape, ws.length, 0⟩]
  | .object d _ => [⟨d.shape, 0, 1⟩]
  | .sampler d _ | .unsupported d => [⟨d.shape, 0, 0⟩]

/-- The leaves of several values. -/
def tilesOf : List Node → List Tile
  | [] => []
  | n :: rest => n.tiles ++ tilesOf rest

end

end Node

/-- The leaf that a shape is of, if it is the shape of a leaf. -/
def NodeShape.tile? (s : NodeShape) : Option Tile :=
  if s.elements ≠ 0 ∨ s.cls = .struct then none
  else if s.cls.isNumeric then some ⟨s, s.rows.toNat * s.columns.toNat, 0⟩
  else some ⟨s, 0, if s.type.isObjectSlot then 1 else 0⟩

namespace Node

variable {objectCount : UInt32}

mutual

/-- The shapes of a value and of its parts determine its leaves. -/
lemma tiles_eq_filterMap_shapes (n : Node) (p : Place) (hn : n.Sound objectCount p) :
    n.tiles = n.shapes.filterMap NodeShape.tile? := by
  have hvalid := (hn n p .self).1
  cases n with
  | array d elements =>
    have hnone : d.shape.tile? = none := if_pos (.inl (UInt32.pos_iff_ne_zero.1 hvalid.1))
    rw [tiles, shapes, List.filterMap_cons_none hnone]
    exact tilesOf_eq_filterMap_shapesOf elements p fun e he n' p' h => hn n' p' (.element he h)
  | struct d members =>
    have hnone : d.shape.tile? = none := if_pos (.inr hvalid.2.1)
    rw [tiles, shapes, List.filterMap_cons_none hnone]
    exact tilesOf_eq_filterMap_shapesOf members p.member fun m hm n' p' h =>
      hn n' p' (.member hm h)
  | words d ws =>
    obtain ⟨helements, hcls, -, -, -, hlength⟩ := hvalid
    have hsome : d.shape.tile? = some ⟨d.shape, ws.length, 0⟩ := by
      cases hd : d.cls <;> simp_all [NodeShape.tile?, Declaration.shape, ParameterClass.isNumeric]
    rw [tiles, shapes, List.filterMap_cons_some hsome]
    rfl
  | object d id =>
    obtain ⟨helements, hcls, hslot, -⟩ := hvalid
    have hsome : d.shape.tile? = some ⟨d.shape, 0, 1⟩ := by
      simp [NodeShape.tile?, Declaration.shape, ParameterClass.isNumeric, helements, hcls, hslot]
    rw [tiles, shapes, List.filterMap_cons_some hsome]
    rfl
  | sampler d states =>
    obtain ⟨helements, hcls, hsampler, -⟩ := hvalid
    have hslot : d.type.isObjectSlot = false := by
      cases htype : d.type <;> rw [htype] at hsampler <;> first | rfl | cases hsampler
    have hsome : d.shape.tile? = some ⟨d.shape, 0, 0⟩ := by
      simp [NodeShape.tile?, Declaration.shape, ParameterClass.isNumeric, helements, hcls, hslot]
    rw [tiles, shapes, List.filterMap_cons_some hsome]
    rfl
  | unsupported d =>
    obtain ⟨helements, hcls, htype, -⟩ := hvalid
    have hslot : d.type.isObjectSlot = false := by rw [htype]; rfl
    have hsome : d.shape.tile? = some ⟨d.shape, 0, 0⟩ := by
      simp [NodeShape.tile?, Declaration.shape, ParameterClass.isNumeric, helements, hcls, hslot]
    rw [tiles, shapes, List.filterMap_cons_some hsome]
    rfl

lemma tilesOf_eq_filterMap_shapesOf (ns : List Node) (p : Place)
    (hns : ∀ n ∈ ns, n.Sound objectCount p) :
    tilesOf ns = (shapesOf ns).filterMap NodeShape.tile? := by
  cases ns with
  | nil => rfl
  | cons n rest =>
    rw [tilesOf, shapesOf, List.filterMap_append,
      tiles_eq_filterMap_shapes n p (hns n List.mem_cons_self),
      tilesOf_eq_filterMap_shapesOf rest p fun m hm => hns m (List.mem_cons_of_mem _ hm)]

end

end Node

end ShaderEffect
