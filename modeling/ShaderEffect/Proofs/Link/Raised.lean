import ShaderEffect.Proofs.Link.Bound

/-!
# What the roots of linked images hold

Each root of an image that is laid out or linked is that of a value that stands in the tree. Its
block has the words of the leaves of the value, in tree order, and a slot for each of its objects
(`Link.RaisedBy`). Linking fills the slots of a root one after the other.
-/

namespace ShaderEffect

open Growth (slotsFrom)

/-- What a block holds for a value, with objects in the slots by their numbers. -/
def Node.contents (n : Node) (objects : Table UInt32 EffectObject) : Contents :=
  ⟨(n.data .words).toArray, ((n.data .objects).map objects.get?).toArray⟩

namespace Link

variable {im : Image} {l l' : Linking} {r : Nat} {n : Node}

/-! ### Filling slots -/

/-- Put the object of a slot into it. -/
def fillSlot (objects : Table UInt32 EffectObject) (c : Contents) (q : Pending) : Contents :=
  { c with objects := c.objects.setIfInBounds q.slot (objects.get? q.id) }

/-- A root is filled by the slots that are its own. -/
lemma getElem?_fillSlots (objects : Table UInt32 EffectObject) (pending : Array Pending)
    (initial : Array Contents) (r : Nat) : (fillSlots objects pending initial)[r]? =
      initial[r]?.map (List.foldl (fillSlot objects) · (pending.toList.filter (·.root = r))) := by
  rw [fillSlots, ← Array.foldl_toList]
  induction pending.toList generalizing initial with
  | nil => simp
  | cons q rest ih =>
    rw [List.foldl_cons, ih, Array.getElem?_modify, List.filter_cons]
    by_cases hq : q.root = r
    · simp [hq, Function.comp_def, fillSlot]
    · simp [hq]

/-- Slots that follow one another are filled with the objects of their numbers. -/
lemma foldl_fillSlot (objects : Table UInt32 EffectObject) (r start : Nat) (ids : List UInt32)
    (c : Contents) : (slotsFrom r start ids).foldl (fillSlot objects) c =
      { c with objects := Slice.overwriteFrom c.objects start (ids.map objects.get?) } := by
  induction ids generalizing start c with
  | nil => rfl
  | cons id rest ih => exact ih (start + 1) (fillSlot objects c ⟨r, start, id⟩)

/-- Slots that were laid out for a value are filled with its objects. -/
lemma foldl_fillSlot_extended (objects : Table UInt32 EffectObject) (r : Nat) (n : Node) :
    (slotsFrom r 0 (n.data .objects)).foldl (fillSlot objects) (({} : Contents).extended n.data) =
      n.contents objects := by
  rw [foldl_fillSlot, Slice.overwriteFrom_zero (by simp [Contents.extended]), Node.contents]
  simp [Contents.extended]

lemma extended_eq_contents (n : Node) :
    ({} : Contents).extended n.data = n.contents .empty := by
  have hget : (Table.empty : Table UInt32 EffectObject).get? = fun _ => none := rfl
  simp [Contents.extended, Node.contents, hget]

/-! ### Images that are laid out or linked -/

/-- An image as it is laid out, and as it is linked. -/
inductive IsLinkingOf (im : Image) : Linking → Prop
  | laid : IsLinkingOf im (start im)
  | linked {skip : List String} {nextObject : Nat} {l : Linking} :
      link im skip nextObject = .ok l → IsLinkingOf im l

lemma IsLinkingOf.skeleton (h : IsLinkingOf im l) : SameSkeleton (start im) l := by
  cases h with
  | laid => exact .refl _
  | linked hlink => exact (attaches_link hlink).skeleton

/-- Values stand as before if only the sources of states and the values of roots change. -/
lemma SameSkeleton.stands (h : SameSkeleton l l') {head : Handle} {ns : List Node} {i stop : Nat}
    {first : Storage → Nat} {hs : List Handle} (hl : l.tree.Stands r head ns i first hs stop) :
    l'.tree.Stands r head ns i first hs stop := by
  refine hl.congr (fun j p _ hp _ => ?_) ⟨fun j n _ hn => (h.value? j).trans hn,
    fun j r _ hr => (h.root? j).trans hr⟩
  obtain ⟨p', hp', hbare⟩ := Option.map_eq_some_iff.1 ((h.nodes j).trans (congrArg _ hp))
  exact ⟨p', hp', by rw [← hbare]; rfl⟩

/-- A root is that of a value that stands from a node on. It holds the words and the objects of the
leaves of the value, in tree order. -/
structure RaisedBy (im : Image) (l : Linking) (r : Nat) (n : Node) (i : Nat) : Prop where
  stands : ∃ stop, l.tree.Stands r ⟨i⟩ [n] i (fun _ => 0) [⟨i⟩] stop
  contents : l.tree.initial[r]? = some (n.contents l.objects)
  waiting : (pendingOf im).toList.filter (·.root = r) = slotsFrom r 0 (n.data .objects)

lemma exists_isRaised (hr : r < (start im).tree.initial.size) :
    (Growth.addImage im {}).2.IsRaised r :=
  (Growth.extends_addImage im {} fun p hp => by cases hp).1.raises.raised (fun _ _ => rfl) r
    (Nat.zero_le r) hr

/-- Every root is that of a value. -/
theorem IsLinkingOf.exists_raisedBy (him : im.WellFormed) (hl : IsLinkingOf im l)
    (hr : r < l.tree.initial.size) : ∃ n i, RaisedBy im l r n i := by
  rw [hl.skeleton.size_initial] at hr
  obtain ⟨n, i, stop, hstands, hcontents, hwaiting⟩ := exists_isRaised hr
  have hstands : (start im).tree.Stands r ⟨i⟩ [n] i (fun _ => 0) [⟨i⟩] stop :=
    hstands.congr (fun j p _ hp _ => ⟨p, hp, rfl⟩) ⟨fun _ _ _ hn => hn, fun _ _ _ hr => hr⟩
  have hcontents : (start im).tree.initial[r]? = some (({} : Contents).extended n.data) := hcontents
  refine ⟨n, i, ⟨stop, hl.skeleton.stands hstands⟩, ?_, hwaiting⟩
  cases hl with
  | laid => exact hcontents.trans (congrArg some (extended_eq_contents n))
  | linked hlink =>
    have hwaiting : (pendingOf im).toList.filter (·.root = r) =
        slotsFrom r 0 (n.data .objects) := hwaiting
    rw [initial_link him hlink, getElem?_fillSlots, hcontents, hwaiting, Option.map_some,
      foldl_fillSlot_extended]

end Link

end ShaderEffect
