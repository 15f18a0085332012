import ShaderEffect.Proofs.Link.Bound
import ShaderEffect.Table.Lookup

/-!
# Objects in their slots

Every slot of a block belongs to a leaf, and an object may be in it if it fits the type of the leaf
(`Admits`). Linking makes an object for the type that the first reference to its number has, and
puts it into all slots that wait for the number. So all objects fit at first if no number of a text
or of a shader is given another type too (`Image.AgreesOnObjects`).
-/

namespace ShaderEffect

/-! ### Slots of a block -/

/-- An object fits the type of the leaf that has a slot, in a block that is tiled by leaves. -/
def Admits (ls : List Tile) (j : Nat) (o : EffectObject) : Prop :=
  ∀ x ∈ Storage.objects.spots ls 0, x.2.Has j → o.fits x.1.type = true

/-- Objects fit the slots from a place on. -/
def AdmitsFrom (ls : List Tile) (start : Nat) (objects : List (Option EffectObject)) : Prop :=
  ∀ k o, objects[k]? = some (some o) → Admits ls (start + k) o

/-- The objects of a block fit their slots. -/
def AdmitsAll (ls : List Tile) (slots : Array (Option EffectObject)) : Prop :=
  ∀ (j : Nat) o, slots[j]? = some (some o) → Admits ls j o

namespace AdmitsAll

variable {ls : List Tile} {slots : Array (Option EffectObject)} {s : Slice}
  {objects : List (Option EffectObject)}

lemma empty (ls : List Tile) : AdmitsAll ls #[] := fun j o ho => by simp at ho

lemma read (h : AdmitsAll ls slots) (s : Slice) : AdmitsFrom ls s.start (s.read slots) := by
  intro k o ho
  rw [Slice.getElem?_read] at ho
  split at ho
  · exact h _ o ho
  · cases ho

/-- Objects that fit where they are written keep all objects fitting. -/
lemma write (h : AdmitsAll ls slots) (hobjects : AdmitsFrom ls s.start objects) :
    AdmitsAll ls (s.write slots objects) := by
  intro j o ho
  by_cases hhas : s.Has j
  · obtain ⟨k, rfl⟩ := Nat.exists_eq_add_of_le hhas.1
    by_cases hk : k < (objects.take s.length).length
    · have hsize : s.start + k < slots.size := by
        rw [← Slice.size_write s slots objects]
        exact (Array.getElem?_eq_some_iff.1 ho).1
      rw [Slice.write, Slice.getElem?_overwriteFrom _ _ _ _ hk hsize] at ho
      rw [List.length_take] at hk
      rw [List.getElem?_take_of_lt (by omega)] at ho
      exact hobjects k o ho
    · rw [Slice.write, Slice.getElem?_overwriteFrom_of_le _ _ _ _ (by omega)] at ho
      exact h _ o ho
  · rw [Slice.getElem?_write_of_not_has _ _ _ hhas] at ho
    exact h j o ho

end AdmitsAll

/-! ### Types of parameters -/

namespace Node

/-- The parts of a value that takes object slots itself have its type. -/
lemma Valid.type_eq_of_mem_children {objectCount : UInt32} {n m : Node} (hn : n.Valid objectCount)
    (hslot : n.decl.type.isObjectSlot = true) (hm : m ∈ n.children) :
    m.decl.type = n.decl.type := by
  cases n with
  | array d elements =>
    rw [hn.2.2 m hm]
    rfl
  | struct d members =>
    rw [decl, hn.2.2] at hslot
    cases hslot
  | _ => cases hm

end Node

namespace Link

variable {im : Image} {t : Tree} {techniques : List Technique} {h i : Handle} {p q : Parameter}

/-- A member is made from a part of the value. -/
lemma Made.mem_children (ht : Made im t techniques) (hp : t.node? h = some p) (hi : i ∈ p.members)
    (hq : t.node? i = some q) : q.node ∈ p.node.children := by
  have hmem := List.mem_map_of_mem (f := t.value?) hi
  rw [ht.members h p hp, Tree.value?_of_node? hq] at hmem
  obtain ⟨n, hn, heq⟩ := List.mem_map.1 hmem
  exact Option.some.inj heq ▸ hn

/-- All that is under a parameter with object slots has its type. -/
lemma Made.type_eq_of_under (ht : Made im t techniques) (him : im.WellFormed)
    (hp : t.node? h = some p) (hslot : p.decl.type.isObjectSlot = true) (hunder : t.Under h i)
    (hq : t.node? i = some q) : q.decl.type = p.decl.type := by
  induction hunder generalizing q with
  | refl => rw [Option.some.inj (hq.symm.trans hp)]
  | member _ hp' hmem ih =>
    have htype := ih hp'
    obtain ⟨place, hcontains⟩ := ht.value _ _ hp'
    have hvalid := him.valid _ _ hcontains
    exact (hvalid.type_eq_of_mem_children (htype ▸ hslot) (ht.mem_children hp' hmem hq)).trans htype

/-- Nothing else is under a leaf. -/
lemma Made.eq_of_under_leaf (ht : Made im t techniques) (hp : t.node? h = some p)
    (hleaf : p.node.isLeaf = true) (hunder : t.Under h i) : i = h := by
  have hmembers : p.members = [] := by
    have hmap := ht.members h p hp
    cases hnode : p.node <;> rw [hnode] at hmap hleaf <;>
      first | exact List.map_eq_nil_iff.1 hmap | cases hleaf
  induction hunder with
  | refl => rfl
  | member _ hp' hmem ih =>
    subst ih
    obtain rfl := Option.some.inj (hp.symm.trans hp')
    rw [hmembers] at hmem
    cases hmem

/-- The leaf that has a slot of a parameter has the type of the parameter. -/
lemma Made.type_eq_of_has (ht : Made im t techniques) (him : im.WellFormed)
    (hnested : Nested t techniques) (hp : t.node? h = some p)
    (hslot : p.decl.type.isObjectSlot = true) {ls : List Tile} (hlays : t.Lays p.root ls)
    {x : NodeShape × Slice} (hx : x ∈ Storage.objects.spots ls 0) {j : Nat}
    (hj : p.objects.Has j) (hxj : x.2.Has j) : x.1.type = p.decl.type := by
  obtain ⟨i, q, hleaf, hshape, hslice⟩ := hlays.exists_leafAt hx hxj
  have hr : p.root < t.initial.size := by
    obtain ⟨c, hc, -⟩ := hlays.size
    exact (Array.getElem?_eq_some_iff.1 hc).1
  obtain ⟨flags, top, hnests⟩ := hnested.roots p.root hr
  have hunder : t.Under h i ∨ t.Under i h := hnests.nested h i p q (Nat.zero_le _) (Nat.zero_le _)
    hp hleaf.node rfl hleaf.root .objects j hj hleaf.has
  rw [← hshape]
  rcases hunder with hunder | hunder
  · exact ht.type_eq_of_under him hp hslot hunder hleaf.node
  · obtain rfl := ht.eq_of_under_leaf hleaf.node hleaf.leaf hunder
    rw [Option.some.inj (hp.symm.trans hleaf.node)]
    rfl

/-- A slot of a parameter admits what fits the parameter. -/
lemma Made.admits_iff (ht : Made im t techniques) (him : im.WellFormed)
    (hnested : Nested t techniques) (hp : t.node? h = some p)
    (hslot : p.decl.type.isObjectSlot = true) {ls : List Tile} (hlays : t.Lays p.root ls) {j : Nat}
    (hj : p.objects.Has j) (o : EffectObject) : Admits ls j o ↔ o.fits p.decl.type = true := by
  have hstop : p.objects.stop ≤ Storage.objects.total ls := by
    refine hlays.stop_le .objects p (List.mem_filter.2 ⟨?_, by simp⟩)
    exact Array.mem_toList_iff.2 (Array.mem_of_getElem? hp)
  constructor
  · intro hadmits
    obtain ⟨x, hx, hxj⟩ := Storage.exists_mem_spots (Nat.zero_le j)
      (show j < 0 + Storage.objects.total ls by have := hj.2; omega)
    rw [← ht.type_eq_of_has him hnested hp hslot hlays hx hj hxj]
    exact hadmits x hx hxj
  · intro hfits x hx hxj
    rw [ht.type_eq_of_has him hnested hp hslot hlays hx hj hxj]
    exact hfits

end Link

/-! ### References to objects -/

/-- A number that is given the type of texts or of shaders is given no other type. -/
def Image.AgreesOnObjects (im : Image) : Prop :=
  ∀ x ∈ im.objectTypes, ∀ y ∈ im.objectTypes, x.1 = y.1 → x.2 = .string ∨ x.2.isShader = true →
    y.2 = x.2

instance (im : Image) : Decidable im.AgreesOnObjects :=
  inferInstanceAs (Decidable (∀ x ∈ im.objectTypes, ∀ y ∈ im.objectTypes, _))

namespace Node

lemma mem_objectTypesOf {ns : List Node} {n : Node} (hn : n ∈ ns) {x : UInt32 × ParameterType}
    (hx : x ∈ n.objectTypes) : x ∈ objectTypesOf ns := by
  induction ns with
  | nil => cases hn
  | cons m rest ih =>
    rw [objectTypesOf]
    rcases List.mem_cons.1 hn with rfl | hn
    · exact List.mem_append_left _ hx
    · exact List.mem_append_right _ (ih hn)

lemma mem_stateObjectTypes {states : List (Assignment Node)} {s : Assignment Node}
    (hs : s ∈ states) {x : UInt32 × ParameterType} (hx : x ∈ s.value.objectTypes) :
    x ∈ stateObjectTypes states := by
  induction states with
  | nil => cases hs
  | cons first rest ih =>
    obtain ⟨operation, index, value⟩ := first
    rw [stateObjectTypes]
    rcases List.mem_cons.1 hs with rfl | hs
    · exact List.mem_append_left _ hx
    · exact List.mem_append_right _ (ih hs)

/-- What a part of a value refers to, the value refers to. -/
lemma Contains.objectTypes_subset {n m : Node} {place place' : Place}
    (h : n.Contains place m place') : m.objectTypes ⊆ n.objectTypes := by
  induction h with
  | self => exact List.Subset.refl _
  | element he _ ih =>
    intro x hx
    rw [objectTypes]
    exact mem_objectTypesOf he (ih hx)
  | member hm _ ih =>
    intro x hx
    rw [objectTypes]
    exact mem_objectTypesOf hm (ih hx)
  | state hs _ ih =>
    intro x hx
    rw [objectTypes]
    exact mem_stateObjectTypes hs (ih hx)

end Node

/-- An image refers to what its values refer to. -/
lemma Image.Contains.objectTypes_subset {im : Image} {n : Node} {place : Place}
    (h : im.Contains n place) : n.objectTypes ⊆ im.objectTypes := by
  intro x hx
  cases h with
  | parameter hr hn =>
    exact List.mem_append_left _ (List.mem_flatMap.2 ⟨_, hr,
      List.mem_append_left _ (hn.objectTypes_subset hx)⟩)
  | parameterNote hr hnote hn =>
    exact List.mem_append_left _ (List.mem_flatMap.2 ⟨_, hr,
      List.mem_append_right _ (Node.mem_objectTypesOf hnote (hn.objectTypes_subset hx))⟩)
  | techniqueNote ht hnote hn =>
    exact List.mem_append_right _ (List.mem_flatMap.2 ⟨_, ht,
      List.mem_append_left _ (Node.mem_objectTypesOf hnote (hn.objectTypes_subset hx))⟩)
  | passNote ht hp hnote hn =>
    exact List.mem_append_right _ (List.mem_flatMap.2 ⟨_, ht,
      List.mem_append_right _ (List.mem_flatMap.2 ⟨_, hp,
        List.mem_append_left _ (Node.mem_objectTypesOf hnote (hn.objectTypes_subset hx))⟩)⟩)
  | passState ht hp hs hn =>
    exact List.mem_append_right _ (List.mem_flatMap.2 ⟨_, ht,
      List.mem_append_right _ (List.mem_flatMap.2 ⟨_, hp,
        List.mem_append_right _ (Node.mem_stateObjectTypes hs (hn.objectTypes_subset hx))⟩)⟩)

/-- An object for a reference fits all references to its number. -/
lemma Image.AgreesOnObjects.fits {im : Image} (him : im.AgreesOnObjects) {id : UInt32}
    {type : ParameterType} (htype : (id, type) ∈ im.objectTypes)
    (hmade : type = .string ∨ type.isShader = true) {o : EffectObject} (ho : o.fits type = true)
    {type' : ParameterType} (htype' : (id, type') ∈ im.objectTypes) : o.fits type' = true := by
  have heq : type' = type := him _ htype _ htype' rfl hmade
  exact heq ▸ ho

/-! ### The objects that linking makes -/

namespace Link

variable {im : Image} {skip : List String} {l l' : Linking}

/-- An object made for a number fits all types that an image gives the number. -/
def FitsReferences (im : Image) (objects : Table UInt32 EffectObject) : Prop :=
  ∀ id o, objects.get? id = some o → ∀ type, (id, type) ∈ im.objectTypes → o.fits type = true

lemma isShader_of_makeShader {type : ParameterType} {data : Bytes} {id : Nat} {o : EffectObject}
    (h : makeShader type data id = .ok o) : o.fits type = true ∧ type.isShader = true := by
  obtain ⟨shader, -, h⟩ := exists_of_bind_eq_ok h
  simp only at h
  split at h
  · cases h
  · rename_i hstage
    cases h
    have hstage : shader.stage.type = type := of_not_not hstage
    refine ⟨beq_iff_eq.2 hstage.symm, ?_⟩
    rw [← hstage]
    cases shader.stage <;> rfl

/-- Only texts and shaders are made, each for its type. -/
lemma exists_of_makeObject {type : Option ParameterType} {data : Bytes} {id : Nat}
    {o : EffectObject} (h : makeObject type data id = .ok (some o)) :
    ∃ a, type = some a ∧ (a = .string ∨ a.isShader = true) ∧ o.fits a = true := by
  unfold makeObject at h
  split at h
  · cases h
    exact ⟨_, rfl, .inl rfl, rfl⟩
  · obtain ⟨o', ho', h⟩ := exists_of_bind_eq_ok h
    cases h
    obtain ⟨hfits, hshader⟩ := isShader_of_makeShader ho'
    exact ⟨_, rfl, .inr hshader, hfits⟩
  · obtain ⟨o', ho', h⟩ := exists_of_bind_eq_ok h
    cases h
    obtain ⟨hfits, hshader⟩ := isShader_of_makeShader ho'
    exact ⟨_, rfl, .inr hshader, hfits⟩
  · cases h

lemma mem_objectTypes_of_objectType? {id : UInt32} {type : ParameterType}
    (h : im.objectType? id = some type) : (id, type) ∈ im.objectTypes := by
  obtain ⟨⟨id', type'⟩, hfind, rfl⟩ := Option.map_eq_some_iff.1 h
  have hid : id' = id := by simpa using List.find?_some hfind
  exact hid ▸ List.mem_of_find?_eq_some hfind

lemma fits_makeObjects (him : im.AgreesOnObjects) {objects : List ObjectData}
    (h : makeObjects im objects l = .ok l') (hl : FitsReferences im l.objects) :
    FitsReferences im l'.objects := by
  induction objects generalizing l with
  | nil =>
    cases h
    exact hl
  | cons d rest ih =>
    obtain ⟨object, hobject, h⟩ := exists_of_bind_eq_ok h
    refine ih h fun id o ho type htype => ?_
    rw [Table.get?_set] at ho
    split at ho
    · rename_i hid
      obtain rfl : d.id = id := TableKey.rank_injective _ _ hid
      subst ho
      obtain ⟨a, ha, hmade, hfits⟩ := exists_of_makeObject hobject
      exact him.fits (mem_objectTypes_of_objectType? ha) hmade hfits htype
    · exact hl id o ho type htype

/-! ### Slots that wait -/

lemma awaits_start {w : Pending} (hw : w ∈ pendingOf im) : ∃ h p, (start im).tree.Awaits w h p := by
  have hmakes := (Growth.makesStep_addImage (P := fun _ => True) im (fun _ _ _ => trivial) {}).1
  rcases hmakes.pending w hw with hw | ⟨h, p, -, hp⟩
  · simp at hw
  · exact ⟨h, p, { hp with }⟩

/-- Whoever waits for an object keeps waiting. -/
lemma SameSkeleton.awaits (hsame : SameSkeleton l l') {w : Pending} {h : Handle} {p : Parameter}
    (hw : l.tree.Awaits w h p) : ∃ p', l'.tree.Awaits w h p' := by
  have hbare := hsame.nodes h
  rw [hw.node?] at hbare
  obtain ⟨p', hp', hbare⟩ := Option.map_eq_some_iff.1 hbare
  simp only [Parameter.bare, Parameter.mk.injEq] at hbare
  obtain ⟨hnode, -, -, -, -, hroot, -, -, hobjects, -⟩ := hbare
  exact ⟨p', hp', hroot.trans hw.root, hnode ▸ hw.node, hobjects.trans hw.objects⟩

/-- A reference in a linked tree is a reference of the image. -/
lemma Made.mem_objectTypes {t : Tree} {techniques : List Technique} (ht : Made im t techniques)
    {w : Pending} {h : Handle} {p : Parameter} (hw : t.Awaits w h p) :
    (w.id, p.decl.type) ∈ im.objectTypes := by
  obtain ⟨place, hcontains⟩ := ht.value h p hw.node?
  obtain ⟨d, hnode⟩ := hw.node
  apply hcontains.objectTypes_subset
  rw [Parameter.decl, hnode]
  exact List.mem_singleton_self _

/-- The shader of a state goes where a slot of the state's value waits. -/
lemma fits_bindShader (him : im.AgreesOnObjects) (hformed : im.WellFormed)
    (hsame : SameSkeleton (start im) l) {s : StateEntry}
    (hs : s ∈ allStates l.tree l.techniques) {p : Parameter}
    (hp : l.tree.node? s.param = some p) {data : Bytes}
    (h : bindShader (pendingOf im) l p data = .ok l') (hl : FitsReferences im l.objects) :
    FitsReferences im l'.objects := by
  obtain ⟨object, w, hobject, hfind, rfl⟩ := exists_of_bindShader h
  obtain ⟨hfits, hshader⟩ := isShader_of_makeShader hobject
  have hmade := hsame.made (made_start im)
  obtain ⟨i, q₀, hw₀⟩ := awaits_start (Array.mem_of_find?_eq_some hfind)
  obtain ⟨q, hw⟩ := hsame.awaits hw₀
  have hroot : q.root = p.root := by
    rw [hw.root]
    simpa using Array.find?_some hfind
  -- The value of the state is the head of its root, so the slot is under it.
  have hr : p.root < l.tree.initial.size :=
    (hsame.laid (laid_start im)).root_lt s.param p.root (Tree.root?_of_node? hp)
  obtain ⟨flags, top, hnests⟩ := (hsame.nested (nested_start im)).roots p.root hr
  obtain ⟨p', hp', htop⟩ := hmade.states s hs
  obtain rfl := Option.some.inj (hp.symm.trans hp')
  have hhead : top = s.param :=
    (hnests.top_eq s.param p (Nat.zero_le _) hp rfl).symm.trans htop
  obtain ⟨head, hhead', hunder⟩ := hnests.under i q (Nat.zero_le _) hw.node? hroot
  rw [List.mem_singleton.1 hhead', hhead] at hunder
  have hslot : p.decl.type.isObjectSlot = true := by
    rw [ParameterType.isObjectSlot, hshader, Bool.or_true]
  have htype := hmade.type_eq_of_under hformed hp hslot hunder hw.node?
  intro id o ho type htype'
  rw [Table.get?_insert] at ho
  split at ho
  · rename_i hid
    obtain rfl : w.id = id := TableKey.rank_injective _ _ hid
    cases ho
    exact him.fits (htype ▸ hmade.mem_objectTypes hw) (.inr hshader) hfits htype'
  · exact hl id o ho type htype'

lemma fits_bindResource (him : im.AgreesOnObjects) (hformed : im.WellFormed)
    (hsame : SameSkeleton (start im) l) {r : Resource}
    (h : bindResource skip (pendingOf im) l r = .ok l') (hl : FitsReferences im l.objects) :
    FitsReferences im l'.objects := by
  obtain ⟨place, s, p, -, hs, hp, hrebinds⟩ := rebinds_of_bindResource h
  cases hrebinds with
  | shader _ _ hbetween =>
    rw [objects_setSource]
    exact fits_bindShader him hformed hsame (mem_allStates_of_stateAt hs) hp hbetween hl
  | expression | reference | selector => rwa [objects_setSource]

lemma fits_bindResources (him : im.AgreesOnObjects) (hformed : im.WellFormed)
    (hsame : SameSkeleton (start im) l) {rs : List Resource}
    (h : bindResources skip (pendingOf im) rs l = .ok l') (hl : FitsReferences im l.objects) :
    FitsReferences im l'.objects := by
  induction rs generalizing l with
  | nil =>
    cases h
    exact hl
  | cons r rest ih =>
    obtain ⟨between, hbetween, h⟩ := exists_of_bind_eq_ok h
    exact ih (hsame.trans (attaches_bindResource hbetween).skeleton) h
      (fits_bindResource him hformed hsame hbetween hl)

lemma fits_link (him : im.AgreesOnObjects) (hformed : im.WellFormed) {nextObject : Nat}
    (h : link im skip nextObject = .ok l) : FitsReferences im l.objects := by
  obtain ⟨made, bound, hmade, hbound, -, rfl⟩ := exists_of_link h
  have hnumbered : Attaches (start im) { start im with nextObject } := .of_eq rfl rfl
  have hsame := hnumbered.skeleton.trans (attaches_makeObjects hmade).skeleton
  have hstart : FitsReferences im (start im).objects := fun id o ho =>
    nomatch (Table.get?_empty id).symm.trans ho
  have hfits : FitsReferences im bound.objects :=
    fits_bindResources him hformed hsame hbound (fits_makeObjects him hmade hstart)
  exact hfits

/-- All objects that a linked image holds fit their slots. -/
theorem admitsAll_link (him : im.AgreesOnObjects) (hformed : im.WellFormed) {nextObject : Nat}
    (h : link im skip nextObject = .ok l) {r : Nat} {c : Contents}
    (hc : l.tree.initial[r]? = some c)
    {ls : List Tile} (hlays : l.tree.Lays r ls) : AdmitsAll ls c.objects := by
  intro j o ho x hx hxj
  obtain ⟨w, hw, rfl, rfl, hobject⟩ := (bound_link hformed h).objects r c hc j o ho
  obtain ⟨i₀, p₀, hw₀⟩ := awaits_start hw
  obtain ⟨p, hp⟩ := (attaches_link h).skeleton.awaits hw₀
  have hmade := made_link h
  obtain ⟨i, q, hleaf, hshape, -⟩ := hlays.exists_leafAt hx hxj
  have hleaf' : l.tree.LeafAt .objects w.root w.slot i₀ p := by
    obtain ⟨d, hnode⟩ := hp.node
    refine ⟨hp.node?, hp.root, by rw [hnode]; rfl, ?_⟩
    show p.objects.Has w.slot
    rw [hp.objects]
    exact ⟨Nat.le_refl _, Nat.lt_succ_self _⟩
  obtain rfl := hlays.leafAt_unique hleaf hleaf'
  obtain rfl := Option.some.inj (hleaf.node.symm.trans hleaf'.node)
  rw [← hshape]
  exact fits_link him hformed h w.id o hobject _ (hmade.mem_objectTypes hp)

end Link

end ShaderEffect
