import ShaderEffect.Effect.Link
import ShaderEffect.Proofs.Writing
import ShaderEffect.Table.Lookup

/-!
# Linking again

Where the identities of objects start makes no difference to linking but in these identities. So an
image that was linked can be linked again, to the same nodes and techniques, and to initial contents
that differ in the identities of objects only (`Link.exists_relink`).
-/

namespace ShaderEffect

/-! ### Objects without identities -/

/-- An object without its identity. -/
def EffectObject.anonymous : EffectObject → EffectObject
  | .text s => .text { s with id := 0 }
  | .texture t => .texture { t with id := 0 }
  | .shader s => .shader { s with id := 0 }

/-- Contents without the identities of objects. -/
def Contents.anonymous (c : Contents) : Contents :=
  { c with objects := c.objects.map (·.map EffectObject.anonymous) }

namespace Link

/-! ### Results that correspond -/

/-- Both fail alike, or both succeed with results in a relation. -/
def Corresponds {ε α β : Type} (R : α → β → Prop) : Except ε α → Except ε β → Prop
  | .ok a, .ok b => R a b
  | .error e, .error e' => e = e'
  | _, _ => False

namespace Corresponds

variable {ε ε' α β α' β' : Type} {R : α → β → Prop} {S : α' → β' → Prop}
  {x : Except ε α} {y : Except ε β}

lemma bind (h : Corresponds R x y) {f : α → Except ε α'} {g : β → Except ε β'}
    (hnext : ∀ a b, R a b → Corresponds S (f a) (g b)) : Corresponds S (x >>= f) (y >>= g) := by
  cases x with
  | ok a =>
    cases y with
    | ok b => exact hnext a b h
    | error e => exact h.elim
  | error e =>
    cases y with
    | ok b => exact h.elim
    | error e' => exact h

lemma mapError (h : Corresponds R x y) (f : ε → ε') :
    Corresponds R (x.mapError f) (y.mapError f) := by
  cases x with
  | ok a =>
    cases y with
    | ok b => exact h
    | error e => exact h.elim
  | error e =>
    cases y with
    | ok b => exact h.elim
    | error e' => exact congrArg f h

lemma exists_ok (h : Corresponds R x y) {a : α} (hx : x = .ok a) : ∃ b, y = .ok b ∧ R a b := by
  subst hx
  cases y with
  | ok b => exact ⟨b, rfl, h⟩
  | error e => exact h.elim

lemma of_eq {x : Except ε α} : Corresponds (fun a b => b = a) x x := by
  cases x <;> rfl

end Corresponds

/-! ### Linkings that differ in identities -/

/-- What linking has made so far differs in the identities of objects only. -/
structure Alike (l l' : Linking) : Prop where
  tree : l'.tree = l.tree
  techniques : l'.techniques = l.techniques
  objects : l'.objects.mapValues EffectObject.anonymous =
    l.objects.mapValues EffectObject.anonymous

variable {l l' : Linking}

lemma corresponds_makeShader (type : ParameterType) (data : Bytes) (id id' : Nat) :
    Corresponds (fun a b => EffectObject.anonymous b = a.anonymous) (makeShader type data id)
      (makeShader type data id') := by
  rw [makeShader, makeShader]
  refine Corresponds.bind .of_eq fun shader _ heq => ?_
  subst heq
  split <;> rfl

lemma corresponds_makeObject (type : Option ParameterType) (data : Bytes) (id id' : Nat) :
    Corresponds (fun a b => Option.map EffectObject.anonymous b = a.map .anonymous)
      (makeObject type data id) (makeObject type data id') := by
  unfold makeObject
  split
  case h_1 => rfl
  case h_2 | h_3 =>
    exact (corresponds_makeShader _ data id id').bind fun a b heq => congrArg some heq
  case h_4 => rfl

lemma corresponds_makeObjects (im : Image) (ds : List ObjectData) (h : Alike l l') :
    Corresponds Alike (makeObjects im ds l) (makeObjects im ds l') := by
  induction ds generalizing l l' with
  | nil => exact h
  | cons d rest ih =>
    rw [makeObjects, makeObjects]
    refine (corresponds_makeObject _ d.data _ _).bind fun a b heq => ih ⟨h.tree, h.techniques, ?_⟩
    rw [Table.mapValues_set, Table.mapValues_set, h.objects, heq]

lemma corresponds_bindShader (pending : Array Pending) (h : Alike l l') (p : Parameter)
    (data : Bytes) :
    Corresponds Alike (bindShader pending l p data) (bindShader pending l' p data) := by
  rw [bindShader, bindShader]
  refine ((corresponds_makeShader _ data _ _).mapError _).bind fun a b heq => ?_
  cases pending.find? (·.root == p.root) with
  | none => rfl
  | some slot =>
    refine ⟨h.tree, h.techniques, ?_⟩
    rw [Table.mapValues_insert, Table.mapValues_insert, h.objects, heq]

lemma Alike.setSource (h : Alike l l') (place : StatePlace) (source : Source) :
    Alike (setSource l place source) (setSource l' place source) := by
  obtain ⟨htree, htechniques, hobjects⟩ := h
  cases place with
  | sampler j i => exact ⟨by simp only [Link.setSource, htree], htechniques, hobjects⟩
  | pass t p i => exact ⟨htree, by simp only [Link.setSource, htechniques], hobjects⟩

lemma corresponds_bindResource (skip : List String) (pending : Array Pending) (h : Alike l l')
    (r : Resource) :
    Corresponds Alike (bindResource skip pending l r) (bindResource skip pending l' r) := by
  have hstate : ∀ place, stateAt l' place = stateAt l place := fun place => by
    cases place <;> simp only [stateAt, h.tree, h.techniques]
  rw [bindResource, bindResource, h.tree]
  cases placeOf l.tree r with
  | none => rfl
  | some place =>
    dsimp only
    rw [hstate]
    cases stateAt l place with
    | none => rfl
    | some state =>
      dsimp only
      cases l.tree.node? state.param with
      | none => rfl
      | some p =>
        have hsource : ∀ {x : Except EffectError Source}, Corresponds Alike
            (x >>= fun source => pure (Link.setSource l place source))
            (x >>= fun source => pure (Link.setSource l' place source)) :=
          Corresponds.bind .of_eq fun source _ heq => heq ▸ h.setSource place source
        dsimp only
        split
        · split
          · exact (corresponds_bindShader pending h p r.data).bind fun a b hab =>
              hab.setSource place _
          · exact Corresponds.bind .of_eq fun program _ heq => heq ▸ h.setSource place _
        · exact hsource
        · exact hsource
        · rfl

lemma corresponds_bindResources (skip : List String) (pending : Array Pending)
    (rs : List Resource) (h : Alike l l') :
    Corresponds Alike (bindResources skip pending rs l) (bindResources skip pending rs l') := by
  induction rs generalizing l l' with
  | nil => exact h
  | cons r rest ih =>
    rw [bindResources, bindResources]
    exact (corresponds_bindResource skip pending h r).bind fun a b hab => ih hab

/-- Programs are checked whatever the identities of shaders are. -/
lemma checkShaders_mapValues (tree : Tree) (skip : List String) (t : Table UInt32 EffectObject) :
    checkShaders tree skip (t.mapValues EffectObject.anonymous).entries =
      checkShaders tree skip t.entries := by
  rw [Table.entries_mapValues]
  induction t.entries with
  | nil => rfl
  | cons e rest ih =>
    rw [List.map_cons, checkShaders, checkShaders, ih]
    cases e.2 <;> rfl

/-- Slots are filled alike, with objects that differ in their identities only. -/
lemma map_fillSlots (objects : Table UInt32 EffectObject) (pending : Array Pending)
    (initial : Array Contents) :
    (fillSlots objects pending initial).map Contents.anonymous =
      fillSlots (objects.mapValues EffectObject.anonymous) pending
        (initial.map Contents.anonymous) := by
  rw [fillSlots, fillSlots, ← Array.foldl_toList, ← Array.foldl_toList]
  induction pending.toList generalizing initial with
  | nil => rfl
  | cons p rest ih =>
    rw [List.foldl_cons, List.foldl_cons, ih]
    congr 1
    refine Array.ext_getElem? fun r => ?_
    rw [Array.getElem?_map, Array.getElem?_modify, Array.getElem?_modify, Array.getElem?_map]
    split
    · cases initial[r]? with
      | none => rfl
      | some c =>
        simp [Contents.anonymous, Array.map_setIfInBounds, Table.get?_mapValues]
    · rfl

/-- Two linkings of one image. -/
structure Relinked (l l' : Linking) : Prop where
  nodes : l'.tree.nodes = l.tree.nodes
  top : l'.tree.top = l.tree.top
  techniques : l'.techniques = l.techniques
  initial : l'.tree.initial.map Contents.anonymous = l.tree.initial.map Contents.anonymous

lemma corresponds_link (im : Image) (skip : List String) (n n' : Nat) :
    Corresponds Relinked (link im skip n) (link im skip n') := by
  rw [link, link]
  obtain ⟨⟨top, techniques⟩, growth⟩ := (Growth.addImage im).run {}
  let tree : Tree := { nodes := growth.nodes, top, initial := growth.initial }
  have hstart : Alike ⟨tree, techniques, .empty, n⟩ ⟨tree, techniques, .empty, n'⟩ :=
    ⟨rfl, rfl, rfl⟩
  refine ((corresponds_makeObjects im im.objectData hstart).mapError _).bind fun a b hab => ?_
  refine (corresponds_bindResources skip _ _ hab).bind fun a b hab => ?_
  rw [← checkShaders_mapValues, ← checkShaders_mapValues _ _ b.objects, hab.objects, hab.tree]
  refine Corresponds.bind .of_eq fun _ _ _ => ⟨rfl, rfl, hab.techniques, ?_⟩
  show (fillSlots _ _ _).map _ = (fillSlots _ _ _).map _
  rw [map_fillSlots, map_fillSlots, hab.objects]

/-- An image that was linked is linked again wherever identities start. -/
theorem exists_relink {im : Image} {skip : List String} {n : Nat} {l : Linking}
    (h : link im skip n = .ok l) (n' : Nat) : ∃ l', link im skip n' = .ok l' ∧ Relinked l l' :=
  (corresponds_link im skip n n').exists_ok h

end Link

end ShaderEffect
