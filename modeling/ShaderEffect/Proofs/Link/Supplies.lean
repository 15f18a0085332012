import ShaderEffect.Proofs.Link.Arena
import ShaderEffect.Table.Lookup

/-!
# The objects of a linked image

An image may have data for the object of a number in several places: among the data of its objects,
and in resources that hold the shader of a state. Linking goes through all of it in order and keeps
what it made last, so that a number has the object that the last data for it describes
(`Link.supplied_link`).
-/

namespace ShaderEffect

open Growth (slotsFrom)

/-- Data for the object of a number, and the type that the object is made for, if any. -/
structure Supply where
  id : UInt32
  type : Option ParameterType
  data : Bytes

/-- A number has no object if there is no data for it, and otherwise what the last data for it
describes, whatever the identity. -/
def Supplied (supplies : List Supply) (id : UInt32) (o : Option EffectObject) : Prop :=
  match supplies.reverse.find? (·.id = id) with
  | some x => ∃ n, Link.makeObject x.type x.data n = .ok o
  | none => o = none

/-- One more supply is the last one for its number. -/
lemma supplied_append_singleton {supplies : List Supply} {objects : Table UInt32 EffectObject}
    (h : ∀ id, Supplied supplies id (objects.get? id)) {x : Supply} {n : Nat}
    {o : Option EffectObject} (ho : Link.makeObject x.type x.data n = .ok o) (id : UInt32) :
    Supplied (supplies ++ [x]) id ((objects.set x.id o).get? id) := by
  rw [Supplied, List.reverse_append, List.reverse_singleton, List.singleton_append, List.find?_cons,
    Table.get?_set]
  by_cases hid : x.id = id
  · subst hid
    simp only [decide_true, if_true]
    exact ⟨n, ho⟩
  · rw [if_neg fun hrank => hid (TableKey.rank_injective _ _ hrank), decide_eq_false hid]
    exact h id

namespace Link

/-- What data of an object is for. -/
def objectSupply (im : Image) (d : ObjectData) : Supply := ⟨d.id, im.objectType? d.id, d.data⟩

/-- The data of a resource is for the first object of a value that is a shader. -/
def valueSupply? (r : Resource) (value : Node) : Option Supply :=
  if r.usage.toNat = 0 ∧ value.decl.type.isShader then
    (value.data .objects).head?.map fun id => ⟨id, some value.decl.type, r.data⟩
  else none

/-- What a resource is for: the value of the state at its place. -/
def resourceSupply? (l : Linking) (r : Resource) : Option Supply := do
  let place ← placeOf l.tree r
  let i ← (stateAt l place).map (·.param)
  valueSupply? r (← l.tree.value? i)

end Link

/-- All that an image has for objects, in order. -/
def Image.supplies (im : Image) : List Supply :=
  im.objectData.map (Link.objectSupply im) ++
    im.resources.filterMap (Link.resourceSupply? (Link.start im))

namespace Link

variable {im : Image} {skip : List String} {l l' : Linking} {supplies : List Supply}
  {r : Resource}

/-! ### Data of objects -/

lemma supplied_makeObjects {ds : List ObjectData} (h : makeObjects im ds l = .ok l')
    (hl : ∀ id, Supplied supplies id (l.objects.get? id)) (id : UInt32) :
    Supplied (supplies ++ ds.map (objectSupply im)) id (l'.objects.get? id) := by
  induction ds generalizing l supplies with
  | nil =>
    cases h
    rw [List.map_nil, List.append_nil]
    exact hl id
  | cons d rest ih =>
    obtain ⟨object, hobject, h⟩ := exists_of_bind_eq_ok h
    rw [List.map_cons, List.append_cons]
    exact ih h (supplied_append_singleton (x := objectSupply im d) hl hobject)

/-! ### Data in resources -/

/-- What a resource is for does not depend on the sources of states. -/
lemma resourceSupply?_bindResource (hmade : Made im l.tree l.techniques) (him : im.WellFormed)
    {pending : Array Pending} (h : bindResource skip pending l r = .ok l') :
    resourceSupply? l' = resourceSupply? l := by
  have hskeleton := (attaches_bindResource h).skeleton
  obtain ⟨place', s, source, -, htree, htechniques⟩ := binds_of_bindResource hmade him h
  have hparam : ∀ place,
      (stateAt l' place).map (·.param) = (stateAt l place).map (·.param) := fun place => by
    rw [stateAt_congr htree htechniques]
    rcases stateAt_setSource l place' place source with ⟨-, heq⟩ | ⟨-, heq⟩
    · rw [heq, Option.map_map]
      rfl
    · rw [heq]
  funext r
  simp only [resourceSupply?, hskeleton.placeOf, hparam, hskeleton.value?]

/-- The first slot of a root is for the first object of its value. -/
lemma map_id_find?_pendingOf (him : im.WellFormed) {i : Handle} {p : Parameter}
    (hp : (start im).tree.node? i = some p) (hhead : p.top = i) :
    ((pendingOf im).find? (·.root == p.root)).map (·.id) = (p.node.data .objects).head? := by
  have hr : p.root < (start im).tree.initial.size :=
    (laid_start im).root_lt i p.root (Tree.root?_of_node? hp)
  have hlinking : IsLinkingOf im (start im) := .laid
  obtain ⟨j, q, hq⟩ := hlinking.exists_mirrorsRoot him hr
  obtain rfl : i = j := hhead.symm.trans (hq.head i p hp rfl)
  obtain rfl : q = p := Option.some.inj (hq.node?.symm.trans hp)
  have hwaiting := congrArg (fun slots => slots.head?.map (·.id)) hq.waiting
  simp only [List.head?_filter, slotsFrom, List.head?_map, List.head?_zipIdx,
    Option.map_map] at hwaiting
  simp only [beq_eq_decide]
  simpa [Function.comp_def] using hwaiting

/-- A shader is an object for its number. -/
lemma makeObject_of_makeShader {type : ParameterType} (htype : type.isShader = true) {data : Bytes}
    {n : Nat} {o : EffectObject} (h : makeShader type data n = .ok o) :
    makeObject (some type) data n = .ok (some o) := by
  cases type
  case pixelShader | vertexShader => simp [makeObject, h, Bind.bind, Except.bind, pure, Except.pure]
  all_goals cases htype

/-- A shader goes to the first object of the value of its state. -/
lemma supplied_bindShader (him : im.WellFormed) (hsame : SameSkeleton (start im) l) {s : StateEntry}
    (hs : s ∈ allStates l.tree l.techniques) {p : Parameter} (hp : l.tree.node? s.param = some p)
    (husage : r.usage = 0) (htype : p.decl.type.isShader = true)
    (h : bindShader (pendingOf im) l p r.data = .ok l')
    (hl : ∀ id, Supplied supplies id (l.objects.get? id)) (id : UInt32) :
    Supplied (supplies ++ (valueSupply? r p.node).toList) id (l'.objects.get? id) := by
  obtain ⟨object, w, hobject, hfind, rfl⟩ := exists_of_bindShader h
  have hmakes := makeObject_of_makeShader htype hobject
  -- The value of a state is the head of its root, as it was when the image was laid out.
  obtain ⟨p', hp', htop⟩ := (hsame.made (made_start im)).states s hs
  obtain rfl := Option.some.inj (hp.symm.trans hp')
  obtain ⟨p₀, hp₀, hnode, -, hroot, -, -, htop'⟩ := hsame.symm.exists_node? hp
  have hid := map_id_find?_pendingOf him hp₀ (htop'.trans htop)
  rw [hroot, hfind, Option.map_some, hnode] at hid
  have hsupply : valueSupply? r p.node = some ⟨w.id, some p.decl.type, r.data⟩ := by
    rw [valueSupply?, if_pos ⟨congrArg _ husage, htype⟩, ← hid]
    rfl
  rw [hsupply]
  exact supplied_append_singleton (x := ⟨w.id, some p.decl.type, r.data⟩) hl hmakes id

lemma supplied_bindResource (him : im.WellFormed) (hsame : SameSkeleton (start im) l)
    (h : bindResource skip (pendingOf im) l r = .ok l')
    (hl : ∀ id, Supplied supplies id (l.objects.get? id)) (id : UInt32) :
    Supplied (supplies ++ (resourceSupply? l r).toList) id (l'.objects.get? id) := by
  obtain ⟨place, s, p, hplace, hs, hp, hrebinds⟩ := rebinds_of_bindResource h
  have hsupply : resourceSupply? l r = valueSupply? r p.node := by
    simp [resourceSupply?, hplace, hs, Tree.value?_of_node? hp]
  have hnone : ¬(r.usage.toNat = 0 ∧ p.decl.type.isShader) →
      Supplied (supplies ++ (resourceSupply? l r).toList) id (l.objects.get? id) := fun hne => by
    have hempty : valueSupply? r p.node = none := if_neg hne
    rw [hsupply, hempty, Option.toList_none, List.append_nil]
    exact hl id
  cases hrebinds with
  | shader husage htype hbetween =>
    rw [objects_setSource, hsupply]
    exact supplied_bindShader him hsame (mem_allStates_of_stateAt hs) hp husage htype hbetween hl id
  | expression _ htype _ =>
    rw [objects_setSource]
    exact hnone fun hshader => Bool.false_ne_true (htype.symm.trans hshader.2)
  | reference husage _ | selector husage _ =>
    rw [objects_setSource]
    exact hnone fun hshader => absurd hshader.1 (by rw [husage]; decide)

lemma supplied_bindResources (him : im.WellFormed) (hsame : SameSkeleton (start im) l)
    {rs : List Resource} (h : bindResources skip (pendingOf im) rs l = .ok l')
    (hl : ∀ id, Supplied supplies id (l.objects.get? id)) (id : UInt32) :
    Supplied (supplies ++ rs.filterMap (resourceSupply? l)) id (l'.objects.get? id) := by
  induction rs generalizing l supplies with
  | nil =>
    cases h
    rw [List.filterMap_nil, List.append_nil]
    exact hl id
  | cons r rest ih =>
    obtain ⟨between, hbetween, h⟩ := exists_of_bind_eq_ok h
    have hfirst := supplied_bindResource him hsame hbetween hl
    have hrest := ih (hsame.trans (attaches_bindResource hbetween).skeleton) h hfirst
    rw [resourceSupply?_bindResource (hsame.made (made_start im)) him hbetween] at hrest
    rw [List.filterMap_cons]
    cases hr : resourceSupply? l r with
    | none => simpa [hr] using hrest
    | some x => simpa [hr] using hrest

/-- Every number of a linked image has the object that the last data for it describes. -/
theorem supplied_link (him : im.WellFormed) {nextObject : Nat}
    (h : link im skip nextObject = .ok l) (id : UInt32) :
    Supplied im.supplies id (l.objects.get? id) := by
  obtain ⟨made, bound, hmade, hbound, -, rfl⟩ := exists_of_link h
  obtain ⟨htree, htechniques⟩ := same_makeObjects hmade
  have hnumbered : Attaches (start im) { start im with nextObject } := .of_eq rfl rfl
  have hsame := hnumbered.skeleton.trans (attaches_makeObjects hmade).skeleton
  have hempty : ∀ id, Supplied [] id ((start im).objects.get? id) := fun id => rfl
  have hobjects := supplied_makeObjects hmade hempty
  have hsupply : resourceSupply? made = resourceSupply? (start im) := by
    funext r
    simp only [resourceSupply?, htree, stateAt_congr htree htechniques]
    rfl
  have hall := supplied_bindResources him hsame hbound hobjects id
  rw [hsupply] at hall
  exact hall

end Link

end ShaderEffect
