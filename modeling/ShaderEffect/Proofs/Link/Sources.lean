import ShaderEffect.Proofs.Link.Laid
import ShaderEffect.Proofs.Settled

/-!
# Where linked states take their values from

Linking an image changes the sources of states, one resource after the other, and every source it
attaches leads to parameters. So in a linked effect no state reads a value that another state
computes, as long as the values of states have blocks of their own (`settled_of_laid`).
-/

namespace ShaderEffect

open Growth (annotationsOf statesOf)

/-- The parameters that a source leads to. -/
def Source.leads : Source → List Handle
  | .constant => []
  | .parameter h => [h]
  | .expression p => p.handles
  | .selector array p => array :: p.handles

namespace Link

/-- All sources lead to parameters. -/
def Sourced (l : Linking) : Prop :=
  ∀ s ∈ allStates l.tree l.techniques, ∀ h ∈ s.source.leads, IsParameter l.tree l.techniques h

/-! ### Lists with one element changed -/

lemma map_modify_eq {α β : Type} {f : α → α} {g : α → β} (hg : ∀ a, g (f a) = g a)
    (list : List α) (i : Nat) : (list.modify i f).map g = list.map g := by
  induction list generalizing i with
  | nil => simp
  | cons a rest ih =>
    cases i with
    | zero => exact congrArg (· :: _) (hg a)
    | succ i => exact congrArg (g a :: ·) (ih i)

lemma flatMap_modify_eq {α β : Type} {f : α → α} {g : α → List β} (hg : ∀ a, g (f a) = g a)
    (list : List α) (i : Nat) : (list.modify i f).flatMap g = list.flatMap g := by
  rw [List.flatMap_def, List.flatMap_def, map_modify_eq hg]

lemma mem_of_mem_modify {α : Type} {f : α → α} {list : List α} {i : Nat} {a : α}
    (h : a ∈ list.modify i f) : a ∈ list ∨ ∃ b ∈ list, a = f b := by
  induction list generalizing i with
  | nil => simp at h
  | cons b rest ih =>
    cases i with
    | zero =>
      rcases List.mem_cons.1 h with rfl | h
      · exact .inr ⟨b, List.mem_cons_self, rfl⟩
      · exact .inl (List.mem_cons_of_mem _ h)
    | succ i =>
      rcases List.mem_cons.1 h with rfl | h
      · exact .inl List.mem_cons_self
      · exact (ih h).imp (List.mem_cons_of_mem _) fun ⟨c, hc, heq⟩ =>
          ⟨c, List.mem_cons_of_mem _ hc, heq⟩

/-! ### Attaching sources -/

variable {l l' : Linking}

lemma map_param_modify (states : List StateEntry) (i : Nat) (source : Source) :
    (states.modify i fun s => { s with source }).map (·.param) = states.map (·.param) :=
  map_modify_eq (fun _ => by rfl) states i

lemma map_bare_modify (states : List StateEntry) (i : Nat) (source : Source) :
    (states.modify i fun s => { s with source }).map StateEntry.bare =
      states.map StateEntry.bare :=
  map_modify_eq (fun _ => by rfl) states i

lemma map_param_allStates (t : Tree) (techniques : List Technique) :
    (allStates t techniques).map (·.param) =
      techniques.flatMap (·.passes.flatMap (·.states.map (·.param))) ++
        t.nodes.toList.flatMap (·.states.map (·.param)) := by
  simp only [allStates, statesOf, List.map_append, List.map_flatMap]

/-- Another source for a state changes nothing else. -/
lemma sameSkeleton_setSource (l : Linking) (place : StatePlace) (source : Source) :
    SameSkeleton l (setSource l place source) := by
  cases place with
  | sampler h i =>
    refine ⟨fun j => ?_, rfl, rfl, rfl, ?_⟩
    · simp only [setSource, Tree.node?, Tree.modifyNode, Array.getElem?_modify]
      split
      · rw [Option.map_map]
        refine congrArg (Option.map · _) (funext fun p => ?_)
        simp only [Function.comp_apply, Parameter.bare, map_bare_modify]
      · rfl
    · rw [map_param_allStates, map_param_allStates]
      simp only [setSource, Tree.modifyNode, Array.toList_modify]
      rw [flatMap_modify_eq fun p : Parameter => map_param_modify p.states i source]
  | pass t p i =>
    refine ⟨fun j => rfl, rfl, rfl, ?_, ?_⟩
    · refine flatMap_modify_eq (fun t => ?_) _ _
      exact congrArg (t.annotations ++ ·) (flatMap_modify_eq (fun _ => by rfl) t.passes p)
    · rw [map_param_allStates, map_param_allStates]
      refine congrArg (· ++ _) (flatMap_modify_eq (fun t => ?_) _ _)
      exact flatMap_modify_eq (fun p : Pass => map_param_modify p.states i source) _ _

lemma objects_setSource (l : Linking) (place : StatePlace) (source : Source) :
    (setSource l place source).objects = l.objects := by
  cases place <;> rfl

lemma mem_allStates_setSource {place : StatePlace} {source : Source} {s : StateEntry}
    (h : s ∈ allStates (setSource l place source).tree (setSource l place source).techniques) :
    s ∈ allStates l.tree l.techniques ∨ s.source = source := by
  have hchange : ∀ {states : List StateEntry} {i : Nat},
      (s ∈ states.modify i fun s => { s with source }) → s ∈ states ∨ s.source = source :=
    fun hs => (mem_of_mem_modify hs).imp_right fun ⟨_, _, heq⟩ => by rw [heq]
  rw [allStates, List.mem_append] at h
  cases place with
  | sampler h' i =>
    rcases h with h | h
    · exact .inl (List.mem_append_left _ h)
    · obtain ⟨p, hp, hs⟩ := List.mem_flatMap.1 h
      simp only [setSource, Tree.modifyNode, Array.toList_modify] at hp
      rcases mem_of_mem_modify hp with hp | ⟨q, hq, rfl⟩
      · exact .inl (List.mem_append_right _ (List.mem_flatMap.2 ⟨p, hp, hs⟩))
      · exact (hchange hs).imp_left fun hs =>
          List.mem_append_right _ (List.mem_flatMap.2 ⟨q, hq, hs⟩)
  | pass t p i =>
    rcases h with h | h
    · have hmem : ∀ technique ∈ l.techniques, ∀ pass ∈ technique.passes, s ∈ pass.states →
          s ∈ allStates l.tree l.techniques :=
        fun _ ht _ hp hs => mem_allStates_of_mem_pass ht hp hs
      obtain ⟨technique, ht, hs⟩ := List.mem_flatMap.1 h
      rcases mem_of_mem_modify ht with ht | ⟨technique', ht', rfl⟩
      · obtain ⟨pass, hpass, hs⟩ := List.mem_flatMap.1 hs
        exact .inl (hmem _ ht _ hpass hs)
      · obtain ⟨pass, hpass, hs⟩ := List.mem_flatMap.1 hs
        rcases mem_of_mem_modify hpass with hpass' | ⟨pass', hpass', rfl⟩
        · exact .inl (hmem _ ht' _ hpass' hs)
        · exact (hchange hs).imp_left (hmem _ ht' _ hpass')
    · exact .inl (List.mem_append_right _ h)

/-- A step of linking keeps the skeleton, and attaches only sources that lead to parameters. -/
structure Attaches (l l' : Linking) : Prop where
  skeleton : SameSkeleton l l'
  sourced : Sourced l → Sourced l'

namespace Attaches

lemma refl (l : Linking) : Attaches l l := ⟨.refl l, id⟩

lemma trans {l'' : Linking} (h : Attaches l l') (h' : Attaches l' l'') : Attaches l l'' :=
  ⟨h.skeleton.trans h'.skeleton, h'.sourced ∘ h.sourced⟩

/-- Objects and identities do not matter. -/
lemma of_eq (htree : l'.tree = l.tree) (htechniques : l'.techniques = l.techniques) :
    Attaches l l' := by
  obtain ⟨tree, techniques, objects, nextObject⟩ := l'
  subst htree htechniques
  exact ⟨⟨fun _ => rfl, rfl, rfl, rfl, rfl⟩, fun h => h⟩

lemma setSource {place : StatePlace} {source : Source}
    (hsource : ∀ h ∈ source.leads, IsParameter l.tree l.techniques h) :
    Attaches l (setSource l place source) where
  skeleton := sameSkeleton_setSource l place source
  sourced hl s hs h hh := by
    refine (sameSkeleton_setSource l place source).isParameter ?_
    rcases mem_allStates_setSource hs with hs | hs
    · exact hl s hs h hh
    · exact hsource h (hs ▸ hh)

end Attaches

/-! ### Linking -/

lemma isParameter_of_mem_handles {t : Tree} {techniques : List Technique} {p : Program}
    {h : Handle} (hh : h ∈ (⟨p, bindInputs t p⟩ : BoundProgram).handles) :
    IsParameter t techniques h := by
  obtain ⟨c, hc⟩ := BoundProgram.mem_handles.1 hh
  obtain ⟨c', -, heq⟩ := List.mem_map.1 hc
  exact .of_find? (Prod.mk.inj heq).2

lemma isParameter_of_bindProgram {t : Tree} {techniques : List Technique} {skip : List String}
    {data : Bytes} {p : BoundProgram} (hp : bindProgram t skip data = .ok p) {h : Handle}
    (hh : h ∈ p.handles) : IsParameter t techniques h := by
  obtain ⟨program, -, hp⟩ := exists_of_bind_eq_ok hp
  obtain ⟨-, -, hp⟩ := exists_of_bind_eq_ok hp
  cases hp
  exact isParameter_of_mem_handles hh

lemma isParameter_of_readReference {t : Tree} {techniques : List Technique} {data : Bytes}
    {source : Source} (hsource : readReference t data = .ok source) {h : Handle}
    (hh : h ∈ source.leads) : IsParameter t techniques h := by
  obtain ⟨path, -, hsource⟩ := exists_of_bind_eq_ok hsource
  split at hsource
  · rename_i hfind
    cases hsource
    obtain rfl := List.mem_singleton.1 hh
    exact .of_find? hfind
  · cases hsource

lemma isParameter_of_readSelector {t : Tree} {techniques : List Technique} {skip : List String}
    {data : Bytes} {source : Source} (hsource : readSelector t skip data = .ok source) {h : Handle}
    (hh : h ∈ source.leads) : IsParameter t techniques h := by
  obtain ⟨length, -, hsource⟩ := exists_of_bind_eq_ok hsource
  obtain ⟨path, -, hsource⟩ := exists_of_bind_eq_ok hsource
  simp only at hsource
  split at hsource
  · cases hsource
  · split at hsource
    · rename_i array hfind
      split at hsource
      · cases hsource
      · obtain ⟨p, hp, hsource⟩ := exists_of_bind_eq_ok hsource
        cases hsource
        rcases List.mem_cons.1 hh with rfl | hh
        · exact .of_find? hfind
        · exact isParameter_of_bindProgram hp hh
    · cases hsource

lemma eq_ok_of_mapError_eq_ok {ε ε' α : Type} {f : ε → ε'} {x : Except ε α} {a : α}
    (h : x.mapError f = .ok a) : x = .ok a := by
  cases x with
  | error error => cases h
  | ok b =>
    cases h
    rfl

/-- A shader that is bound goes where the first slot of its root waits. -/
lemma exists_of_bindShader {pending : Array Pending} {p : Parameter} {data : Bytes}
    (h : bindShader pending l p data = .ok l') : ∃ object slot,
      makeShader p.decl.type data l.nextObject = .ok object ∧
      pending.find? (·.root == p.root) = some slot ∧
      l' = { l with
        objects := l.objects.insert slot.id object, nextObject := l.nextObject + 1 } := by
  obtain ⟨object, hobject, h⟩ := exists_of_bind_eq_ok h
  split at h
  · rename_i slot hslot
    cases h
    exact ⟨object, slot, eq_ok_of_mapError_eq_ok hobject, hslot, rfl⟩
  · cases h

lemma attaches_bindShader {pending : Array Pending} {p : Parameter} {data : Bytes}
    (h : bindShader pending l p data = .ok l') : Attaches l l' := by
  obtain ⟨object, slot, -, -, rfl⟩ := exists_of_bindShader h
  exact .of_eq rfl rfl

/-- What binding a resource makes of a linking, given the place of a state and the parameter that
holds the state's own value. -/
inductive Rebinds (skip : List String) (pending : Array Pending) (l : Linking) (r : Resource)
    (place : StatePlace) (p : Parameter) : Linking → Prop
  | shader {between : Linking} : r.usage = 0 → p.decl.type.isShader = true →
      bindShader pending l p r.data = .ok between →
      Rebinds skip pending l r place p (setSource between place .constant)
  | expression {program : BoundProgram} : r.usage = 0 → p.decl.type.isShader = false →
      bindProgram l.tree skip r.data = .ok program →
      Rebinds skip pending l r place p (setSource l place (.expression program))
  | reference {source : Source} : r.usage = 1 → readReference l.tree r.data = .ok source →
      Rebinds skip pending l r place p (setSource l place source)
  | selector {source : Source} : r.usage = 2 → readSelector l.tree skip r.data = .ok source →
      Rebinds skip pending l r place p (setSource l place source)

/-- A resource that is bound has a place, and a state is there whose value is in the tree. -/
lemma rebinds_of_bindResource {skip : List String} {pending : Array Pending} {r : Resource}
    (h : bindResource skip pending l r = .ok l') : ∃ place s p,
      placeOf l.tree r = some place ∧ stateAt l place = some s ∧ l.tree.node? s.param = some p ∧
      Rebinds skip pending l r place p l' := by
  simp only [bindResource] at h
  split at h
  case h_2 => cases h
  rename_i place hplace
  split at h
  case h_2 => cases h
  rename_i s hs
  split at h
  case h_2 => cases h
  rename_i p hp
  refine ⟨place, s, p, hplace, hs, hp, ?_⟩
  split at h
  case h_1 husage =>
    have husage : r.usage = 0 := UInt32.toNat_inj.1 husage
    split at h
    case isTrue htype =>
      obtain ⟨between, hbetween, h⟩ := exists_of_bind_eq_ok h
      cases h
      exact .shader husage htype hbetween
    case isFalse htype =>
      obtain ⟨program, hprogram, h⟩ := exists_of_bind_eq_ok h
      cases h
      exact .expression husage (Bool.eq_false_iff.2 htype) hprogram
  case h_2 husage =>
    obtain ⟨source, hsource, h⟩ := exists_of_bind_eq_ok h
    cases h
    exact .reference (UInt32.toNat_inj.1 husage) hsource
  case h_3 husage =>
    obtain ⟨source, hsource, h⟩ := exists_of_bind_eq_ok h
    cases h
    exact .selector (UInt32.toNat_inj.1 husage) hsource
  case h_4 => cases h

lemma attaches_bindResource {skip : List String} {pending : Array Pending} {r : Resource}
    (h : bindResource skip pending l r = .ok l') : Attaches l l' := by
  obtain ⟨place, s, p, -, -, -, hrebinds⟩ := rebinds_of_bindResource h
  cases hrebinds with
  | shader _ _ hbetween =>
    exact (attaches_bindShader hbetween).trans (.setSource fun _ hh => by cases hh)
  | expression _ _ hprogram => exact .setSource fun _ => isParameter_of_bindProgram hprogram
  | reference _ hsource => exact .setSource fun _ => isParameter_of_readReference hsource
  | selector _ hsource => exact .setSource fun _ => isParameter_of_readSelector hsource

lemma attaches_bindResources {skip : List String} {pending : Array Pending}
    {resources : List Resource} (h : bindResources skip pending resources l = .ok l') :
    Attaches l l' := by
  induction resources generalizing l with
  | nil =>
    cases h
    exact .refl _
  | cons r rest ih =>
    obtain ⟨between, hbetween, h⟩ := exists_of_bind_eq_ok h
    exact (attaches_bindResource hbetween).trans (ih h)

lemma attaches_makeObjects {im : Image} {objects : List ObjectData}
    (h : makeObjects im objects l = .ok l') : Attaches l l' := by
  induction objects generalizing l with
  | nil =>
    cases h
    exact .refl _
  | cons d rest ih =>
    obtain ⟨object, -, h⟩ := exists_of_bind_eq_ok h
    refine Attaches.trans ?_ (ih h)
    exact .of_eq rfl rfl

lemma extents_fillSlots (objects : Table UInt32 EffectObject) (pending : Array Pending)
    (initial : Array Contents) :
    (fillSlots objects pending initial).map extent = initial.map extent := by
  rw [fillSlots, ← Array.foldl_toList]
  induction pending.toList generalizing initial with
  | nil => rfl
  | cons p rest ih =>
    have hset : ∀ c : Contents, extent { c with
        objects := c.objects.setIfInBounds p.slot (objects.get? p.id) } = extent c := fun c => by
      rw [extent, extent, Array.size_setIfInBounds]
    rw [List.foldl_cons, ih]
    apply Array.toList_inj.1
    rw [Array.toList_map, Array.toList_map, Array.toList_modify]
    exact map_modify_eq hset _ _

/-- The values of roots do not matter, as long as their numbers do not change. -/
lemma Attaches.of_initial {initial : Array Contents}
    (hextents : initial.map extent = l.tree.initial.map extent) :
    Attaches l { l with tree := { l.tree with initial } } := by
  have hskeleton : SameSkeleton l { l with tree := { l.tree with initial } } :=
    ⟨fun _ => rfl, rfl, hextents, rfl, rfl⟩
  exact ⟨hskeleton, fun hl s hs h hh => hskeleton.isParameter (hl s hs h hh)⟩

/-- To link an image is to make its objects, to bind its resources, to check all programs of shaders
and to fill the slots. -/
lemma exists_of_link {im : Image} {skip : List String} {nextObject : Nat}
    (h : link im skip nextObject = .ok l) : ∃ made bound,
      makeObjects im im.objectData { start im with nextObject } = .ok made ∧
      bindResources skip (pendingOf im) im.resources made = .ok bound ∧
      checkShaders bound.tree skip bound.objects.entries = .ok () ∧
      l = { bound with tree := { bound.tree with
        initial := fillSlots bound.objects (pendingOf im) bound.tree.initial } } := by
  obtain ⟨made, hmade, h⟩ := exists_of_bind_eq_ok h
  obtain ⟨bound, hbound, h⟩ := exists_of_bind_eq_ok h
  obtain ⟨⟨⟩, hcheck, h⟩ := exists_of_bind_eq_ok h
  exact ⟨made, bound, eq_ok_of_mapError_eq_ok hmade, hbound, hcheck, (Except.ok.inj h).symm⟩

/-- To link an image is to attach sources to its states. -/
theorem attaches_link {im : Image} {skip : List String} {nextObject : Nat}
    (h : link im skip nextObject = .ok l) : Attaches (start im) l := by
  obtain ⟨made, bound, hmade, hbound, -, rfl⟩ := exists_of_link h
  have hstart : Attaches (start im) { start im with nextObject } := .of_eq rfl rfl
  exact ((hstart.trans (attaches_makeObjects hmade)).trans
    (attaches_bindResources hbound)).trans (.of_initial (extents_fillSlots ..))

lemma sourced_start (im : Image) : Sourced (start im) := fun s hs h hh => by
  rw [source_start hs] at hh
  cases hh

end Link

namespace LinkedEffect

variable (e : LinkedEffect)

/-- All states of an effect. -/
def states : List StateEntry := Link.allStates e.tree e.techniques

/-- The parameters of an effect: top-level ones, annotations, and what is under them. -/
def IsParameter (h : Handle) : Prop := Link.IsParameter e.tree e.techniques h

/-- The root that holds the value of a state. -/
def IsValueRoot (r : Nat) : Prop := ∃ s ∈ e.states, e.tree.root? s.param = some r

/-- An effect that was linked from an image, in which every value of a state has a block of its
own. -/
structure Proper : Prop where
  laid : Link.Laid e.tree e.techniques
  sourced : ∀ s ∈ e.states, ∀ h ∈ s.source.leads, e.IsParameter h
  own : ∀ r, e.IsValueRoot r → ∀ id, e.roots[r]? = some id →
    ∀ r' : Nat, e.roots[r']? = some id → r' = r

variable {e}

lemma blockOf?_eq_some_root {h : Handle} {id : Nat} :
    e.blockOf? h = some id ↔ ∃ r, e.tree.root? h = some r ∧ e.roots[r]? = some id := by
  rw [blockOf?_eq_some]
  constructor
  · rintro ⟨p, hp, hid⟩
    exact ⟨p.root, Tree.root?_of_node? hp, hid⟩
  · rintro ⟨r, hr, hid⟩
    obtain ⟨p, hp, rfl⟩ := Option.map_eq_some_iff.1 hr
    exact ⟨p, hp, hid⟩

lemma mem_states_of_stateAt? {place : Link.StatePlace} {s : StateEntry}
    (h : e.stateAt? place = some s) : s ∈ e.states :=
  Link.mem_allStates_of_stateAt h

lemma isParameter_of_mem_members {array : Handle} (harray : e.IsParameter array) {h : Handle}
    (hh : h ∈ ((e.tree.node? array).map (·.members)).getD []) : e.IsParameter h := by
  cases hp : e.tree.node? array with
  | none => simp [hp] at hh
  | some p => exact Link.IsParameter.member harray hp (by simpa [hp] using hh)

namespace Proper

variable (he : e.Proper)
include he

/-- States that keep their values in one block are the same. -/
lemma eq_of_blockOf? {s s' : StateEntry} (hs : s ∈ e.states) (hs' : s' ∈ e.states) {id : Nat}
    (hid : e.blockOf? s.param = some id) (hid' : e.blockOf? s'.param = some id) : s = s' := by
  obtain ⟨r, hr, hid⟩ := blockOf?_eq_some_root.1 hid
  obtain ⟨r', hr', hid'⟩ := blockOf?_eq_some_root.1 hid'
  obtain rfl := he.own r ⟨s, hs, hr⟩ id hid r' hid'
  exact List.inj_on_of_nodup_map he.laid.states hs hs' (hr.trans hr'.symm)

/-- No parameter shares its block with the value of a state. -/
lemma blockOf?_ne_of_isParameter {h : Handle} (hh : e.IsParameter h) {s : StateEntry}
    (hs : s ∈ e.states) {id : Nat} (hid : e.blockOf? h = some id) :
    e.blockOf? s.param ≠ some id := by
  intro hid'
  obtain ⟨r, hr, hid⟩ := blockOf?_eq_some_root.1 hid
  obtain ⟨r', hr', hid'⟩ := blockOf?_eq_some_root.1 hid'
  obtain rfl := he.own r' ⟨s, hs, hr'⟩ id hid' r hid
  exact he.laid.apart h hh s hs (hr.trans hr'.symm)

/-- No parameter holds a computed value. -/
lemma stable_of_isParameter {h : Handle} (hh : e.IsParameter h) : e.Stable h := by
  rintro id hid ⟨place, s, p, hplace, -, hid'⟩
  exact he.blockOf?_ne_of_isParameter hh (mem_states_of_stateAt? hplace) hid hid'

lemma sound {place : Link.StatePlace} {s : StateEntry} (hplace : e.stateAt? place = some s) :
    e.Sound s := by
  have hs := mem_states_of_stateAt? hplace
  have hsourced := he.sourced s hs
  refine ⟨fun h hh => ?_, fun p hp id hid => ⟨place, s, p, hplace, hp, hid⟩⟩
  rw [reads] at hh
  cases hsource : s.source with
  | constant =>
    -- The value of a state that is not an expression is in a block of its own.
    simp only [hsource] at hh
    obtain rfl := List.mem_singleton.1 hh
    rintro id hid ⟨place', s', p, hplace', hp, hid'⟩
    obtain rfl := he.eq_of_blockOf? hs (mem_states_of_stateAt? hplace') hid hid'
    rw [hsource] at hp
    cases hp
  | parameter h' | expression p =>
    simp only [hsource, Source.leads] at hh hsourced
    exact he.stable_of_isParameter (hsourced h hh)
  | selector array p =>
    simp only [hsource, Source.leads] at hh hsourced
    refine he.stable_of_isParameter ?_
    rcases List.mem_append.1 hh with hh | hh
    · exact hsourced h hh
    · exact isParameter_of_mem_members (hsourced array List.mem_cons_self) hh

/-- What a proper effect computes is read by nothing but the states themselves. -/
theorem settled : e.Settled where
  find _ _ hfind := he.stable_of_isParameter (.of_find? hfind)
  nodes _ _ hp s hs := by
    obtain ⟨place, hplace⟩ :=
      Link.exists_stateAt_of_mem_node (l := ⟨e.tree, e.techniques, .empty, 0⟩) hp hs
    exact he.sound hplace
  passes _ ht _ hp s hs := by
    obtain ⟨place, hplace⟩ :=
      Link.exists_stateAt_of_mem_pass (l := ⟨e.tree, e.techniques, .empty, 0⟩) ht hp hs
    exact he.sound hplace

lemma membersShare (h : Handle) (p : Parameter) (hp : e.tree.node? h = some p) (h' : Handle)
    (hh' : h' ∈ p.members) : e.blockOf? h' = e.blockOf? h := by
  have hroot := he.laid.members h p hp h' hh'
  refine Option.ext fun id => ?_
  rw [blockOf?_eq_some_root, blockOf?_eq_some_root, hroot, Tree.root?, hp]
  rfl

end Proper

end LinkedEffect

end ShaderEffect
