import ShaderEffect.Proofs.Plan.Shape
import ShaderEffect.Proofs.Plan.Regular

/-!
# What actions address

An action addresses states of the device, or one field of a light or of the material. Fields are
kept by the effect and sent when they are assigned. Actions that address different cells can be done
in any order, and to do an action twice is to do it once.
-/

namespace ShaderEffect

/-! ### Cells -/

/-- What an action can set: a state of the device, or a field. -/
inductive Cell where
  | state (key : StateKey)
  | light (index op : UInt32)
  | material (op : UInt32)
deriving DecidableEq

namespace Cell

/-- The state of the device that a field is sent with. -/
def sentWith : Cell → Option StateKey
  | .state _ => none
  | .light index _ => some (.light index)
  | .material _ => some .material

end Cell

namespace Action

/-- The cells that an action sets. -/
def cells : Action → List Cell
  | .call c => c.keys.map .state
  | .light index op _ => if index.toNat < Light.count then [.light index op] else []
  | .material op _ => [.material op]

variable {a b : Action}

/-- An action that assigns a field does so to be sent with one state. -/
lemma exists_cell_of_mem_keys (ha : a.isCall = false) {key : StateKey} (hkey : key ∈ a.keys) :
    ∃ cell ∈ a.cells, cell.sentWith = some key := by
  cases a with
  | call c => cases ha
  | material op words =>
    obtain rfl := List.mem_singleton.1 hkey
    exact ⟨_, List.mem_singleton.2 rfl, rfl⟩
  | light index op words =>
    simp only [keys] at hkey
    split at hkey
    · rename_i hindex
      obtain rfl := List.mem_singleton.1 hkey
      exact ⟨.light index op, by simp [cells, hindex], rfl⟩
    · cases hkey

lemma mem_keys_of_sentWith {cell : Cell} (hcell : cell ∈ a.cells) {key : StateKey}
    (hkey : cell.sentWith = some key) : a.isCall = false ∧ key ∈ a.keys := by
  cases a with
  | call c =>
    obtain ⟨key', -, rfl⟩ := List.mem_map.1 hcell
    cases hkey
  | material op words =>
    obtain rfl := List.mem_singleton.1 hcell
    cases hkey
    exact ⟨rfl, List.mem_singleton.2 rfl⟩
  | light index op words =>
    simp only [cells] at hcell
    split at hcell
    · rename_i hindex
      obtain rfl := List.mem_singleton.1 hcell
      cases hkey
      exact ⟨rfl, by simp [keys, hindex]⟩
    · cases hcell

lemma isAssigned_of_mem_keys (ha : a.isCall = false) {key : StateKey} (hkey : key ∈ a.keys) :
    key.isAssigned = true := by
  cases a with
  | call c => cases ha
  | material op words =>
    obtain rfl := List.mem_singleton.1 hkey
    rfl
  | light index op words =>
    simp only [keys] at hkey
    split at hkey
    · obtain rfl := List.mem_singleton.1 hkey
      rfl
    · cases hkey

/-- The field that an action assigns. -/
def field? : Action → Option Cell
  | .call _ => none
  | .light index op _ => some (.light index op)
  | .material op _ => some (.material op)

/-- The words that an action assigns to a field. -/
def words : Action → List UInt32
  | .call _ => []
  | .light _ _ words | .material _ words => words

/-- An action assigns the field that another one assigns, with at least as many words. -/
def Covers (a b : Action) : Prop := b.field? = a.field? ∧ b.words.length ≤ a.words.length

instance (a b : Action) : Decidable (a.Covers b) :=
  inferInstanceAs (Decidable (_ ∧ _))

lemma Covers.refl (a : Action) : a.Covers a := ⟨rfl, Nat.le_refl _⟩

/-- Of two actions that assign the same field one covers the other. -/
lemma disjoint_or_covers (a b : Action) :
    a.cells.Disjoint b.cells ∨ a.Covers b ∨ b.Covers a := by
  by_cases hfield : b.field? = a.field?
  · exact .inr ((Nat.le_total b.words.length a.words.length).imp (⟨hfield, ·⟩)
      (⟨hfield.symm, ·⟩))
  · refine .inl fun cell ha hb => hfield ?_
    cases a <;> cases b <;> simp_all [cells, field?]

end Action

/-! ### Fields -/

/-- Components are as they were replaced last. -/
lemma overwrite_overwrite {n : Nat} (v : Vector Single n) {words words' : List UInt32}
    (h : words'.length ≤ words.length) :
    overwrite (overwrite v words') words = overwrite v words := by
  ext i hi
  simp only [overwrite, Vector.getElem_ofFn, Fin.getElem_fin]
  cases hword : words[i]? with
  | some w => rfl
  | none =>
    have hlen := List.getElem?_eq_none_iff.1 hword
    rw [List.getElem?_eq_none (Nat.le_trans h hlen)]

namespace Light

lemma setField_setField (l : Light) (op : UInt32) {words words' : List UInt32}
    (h : words'.length ≤ words.length) :
    (l.setField op words').setField op words = l.setField op words := by
  simp only [setField]
  split <;> simp only [overwrite_overwrite _ h]

lemma setField_comm (l : Light) {op op' : UInt32} (h : op ≠ op') (words words' : List UInt32) :
    (l.setField op words).setField op' words' = (l.setField op' words').setField op words := by
  have hne : op.toNat ≠ op'.toNat := fun heq => h (UInt32.toNat_inj.1 heq)
  simp only [setField]
  generalize op.toNat = n at hne
  generalize op'.toNat = n' at hne
  split <;> split <;> first | rfl | exact absurd rfl hne

end Light

namespace Material

lemma setField_setField (m : Material) (op : UInt32) {words words' : List UInt32}
    (h : words'.length ≤ words.length) :
    (m.setField op words').setField op words = m.setField op words := by
  simp only [setField]
  split <;> simp only [overwrite_overwrite _ h]

lemma setField_comm (m : Material) {op op' : UInt32} (h : op ≠ op') (words words' : List UInt32) :
    (m.setField op words).setField op' words' = (m.setField op' words').setField op words := by
  have hne : op.toNat ≠ op'.toNat := fun heq => h (UInt32.toNat_inj.1 heq)
  simp only [setField]
  generalize op.toNat = n at hne
  generalize op'.toNat = n' at hne
  split <;> split <;> first | rfl | exact absurd rfl hne

end Material

/-- The fields that an effect keeps. -/
structure Fields where
  lights : Vector Light Light.count
  material : Material

namespace Fields

/-- Assign the field that an action assigns. -/
def assign (f : Fields) : Action → Fields
  | .call _ => f
  | .light index op words =>
    if h : index.toNat < Light.count then
      { f with lights := Light.setFieldOf f.lights ⟨index.toNat, h⟩ op words }
    else f
  | .material op words => { f with material := f.material.setField op words }

/-- Assign the fields that some actions assign, one after the other. -/
def assignAll (f : Fields) (actions : List Action) : Fields := actions.foldl assign f

/-- The call that sends all fields that are sent with a state. -/
def send? (f : Fields) : StateKey → Option DeviceCall
  | .light index =>
    if h : index.toNat < Light.count then some (.light index f.lights[index.toNat]) else none
  | .material => some (.material f.material)
  | _ => none

lemma send?_light (f : Fields) (index : UInt32) : f.send? (.light index) =
    if h : index.toNat < Light.count then some (.light index f.lights[index.toNat]) else none := rfl

/-- What a covering action assigns replaces what was assigned before. -/
lemma assign_assign (f : Fields) {a b : Action} (h : a.Covers b) :
    (f.assign b).assign a = f.assign a := by
  obtain ⟨hfield, hlen⟩ := h
  cases a with
  | call c => cases b with
    | call c' => rfl
    | light index op words | material op words => cases hfield
  | material op words => cases b with
    | material op' words' =>
      cases hfield
      have hlen : words'.length ≤ words.length := hlen
      simp only [assign, Material.setField_setField _ _ hlen]
    | call c | light index op words => cases hfield
  | light index op words => cases b with
    | light index' op' words' =>
      cases hfield
      have hlen : words'.length ≤ words.length := hlen
      by_cases hindex : index.toNat < Light.count
      · simp [assign, hindex, Light.setFieldOf, Light.setField_setField _ _ hlen]
      · simp [assign, hindex]
    | call c | material op words => cases hfield

lemma assign_comm (f : Fields) {a b : Action} (hab : a.cells.Disjoint b.cells) :
    (f.assign a).assign b = (f.assign b).assign a := by
  cases a with
  | call c => rfl
  | material op words => cases b with
    | call c => rfl
    | light index' op' words' =>
      simp only [assign]
      split <;> rfl
    | material op' words' =>
      have hop : op ≠ op' := fun h => hab (a := .material op) (by simp [Action.cells])
        (by simp [Action.cells, h])
      simp only [assign, Material.setField_comm _ hop]
  | light index op words =>
    cases b with
    | call c => rfl
    | material op' words' =>
      simp only [assign]
      split <;> rfl
    | light index' op' words' =>
      by_cases h : index.toNat < Light.count
      · by_cases h' : index'.toNat < Light.count
        · simp only [assign, dif_pos h, dif_pos h', Light.setFieldOf]
          by_cases hindex : index = index'
          · subst hindex
            have hop : op ≠ op' := fun hop => hab (a := .light index op)
              (by simp [Action.cells, h]) (by simp [Action.cells, h, hop])
            simp [Light.setField_comm _ hop]
          · have hne : index.toNat ≠ index'.toNat := fun heq => hindex (UInt32.toNat_inj.1 heq)
            simp only [Fin.getElem_fin, ne_eq, hne, not_false_eq_true, Vector.getElem_set_ne,
              hne.symm, mk.injEq, and_true]
            rw [Vector.set_comm _ _ hne]
        · simp [assign, h, h']
      · simp [assign, h]

/-- Actions can be done in any order, if those that differ address different cells. -/
lemma assignAll_assign (f : Fields) (a : Action) {actions : List Action}
    (h : ∀ b ∈ actions, a = b ∨ a.cells.Disjoint b.cells) :
    (f.assign a).assignAll actions = (f.assignAll actions).assign a := by
  induction actions generalizing f with
  | nil => rfl
  | cons b rest ih =>
    have hrest := fun f => ih f fun c hc => h c (List.mem_cons_of_mem _ hc)
    have hfirst : (f.assign a).assign b = (f.assign b).assign a := by
      rcases h b List.mem_cons_self with rfl | hab
      · rfl
      · exact f.assign_comm hab
    calc (f.assign a).assignAll (b :: rest) = ((f.assign a).assign b).assignAll rest := rfl
      _ = ((f.assign b).assign a).assignAll rest := by rw [hfirst]
      _ = ((f.assign b).assignAll rest).assign a := hrest _

lemma assignAll_assignAll (f : Fields) {actions others : List Action}
    (h : ∀ a ∈ actions, ∀ b ∈ others, a = b ∨ a.cells.Disjoint b.cells) :
    (f.assignAll actions).assignAll others = (f.assignAll others).assignAll actions := by
  induction actions generalizing f with
  | nil => rfl
  | cons a rest ih =>
    calc ((f.assign a).assignAll rest).assignAll others
        = ((f.assign a).assignAll others).assignAll rest :=
          ih _ fun c hc => h c (List.mem_cons_of_mem _ hc)
      _ = ((f.assignAll others).assign a).assignAll rest := by
          rw [f.assignAll_assign a (h a List.mem_cons_self)]

/-- Fields that differ only in what an action assigns go on to do so. -/
lemma assign_congr {f f' : Fields} {a : Action} (h : f'.assign a = f.assign a) (b : Action) :
    (f'.assign b).assign a = (f.assign b).assign a := by
  rcases a.disjoint_or_covers b with hdisjoint | hcovers | hcovers
  · rw [← f'.assign_comm hdisjoint, ← f.assign_comm hdisjoint, h]
  · rw [f'.assign_assign hcovers, f.assign_assign hcovers, h]
  · rw [← f'.assign_assign hcovers, ← f.assign_assign hcovers, h]

/-- To assign a field first makes no difference if a covering action follows. -/
lemma assignAll_assign_of_covers (f : Fields) {a b : Action} (hab : a.Covers b)
    {actions : List Action} (ha : a ∈ actions) :
    (f.assign b).assignAll actions = f.assignAll actions := by
  have hgo : ∀ f f' : Fields, f'.assign a = f.assign a →
      f'.assignAll actions = f.assignAll actions := by
    induction actions with
    | nil => cases ha
    | cons first rest ih =>
      intro f f' h
      rcases List.mem_cons.1 ha with rfl | ha
      · exact congrArg (fun f : Fields => f.assignAll rest) h
      · exact ih ha _ _ (assign_congr h first)
  exact hgo f _ (f.assign_assign hab)

/-- What actions that are done already would assign is there. -/
lemma assignAll_eq_self {f : Fields} {actions : List Action}
    (h : ∀ a ∈ actions, f.assign a = f) : f.assignAll actions = f := by
  induction actions with
  | nil => rfl
  | cons a rest ih =>
    rw [assignAll, List.foldl_cons, h a List.mem_cons_self]
    exact ih fun b hb => h b (List.mem_cons_of_mem _ hb)

/-! ### Sending fields -/

lemma keys_of_send? {f : Fields} {key : StateKey} {c : DeviceCall} (h : f.send? key = some c) :
    c.keys = [key] := by
  cases key with
  | light index =>
    rw [send?_light] at h
    split at h
    · cases h
      rfl
    · cases h
  | material =>
    cases h
    rfl
  | _ => cases h

lemma exists_send? (f : Fields) {a : Action} (ha : a.isCall = false) {key : StateKey}
    (hkey : key ∈ a.keys) : ∃ c, f.send? key = some c := by
  cases a with
  | call c => cases ha
  | material op words =>
    obtain rfl := List.mem_singleton.1 hkey
    exact ⟨_, rfl⟩
  | light index op words =>
    simp only [Action.keys] at hkey
    split at hkey
    · rename_i hindex
      obtain rfl := List.mem_singleton.1 hkey
      exact ⟨_, dif_pos hindex⟩
    · cases hkey

/-- Fields are sent as before unless one of them was assigned. -/
lemma send?_assign_of_notMem (f : Fields) {a : Action} {key : StateKey}
    (h : a.isCall = false → key ∉ a.keys) : (f.assign a).send? key = f.send? key := by
  cases a with
  | call c => rfl
  | material op words => cases key with
    | material => exact absurd (List.mem_singleton.2 rfl) (h rfl)
    | _ => rfl
  | light index op words => cases key with
    | light index' =>
      by_cases hindex : index.toNat < Light.count
      · have hne : index ≠ index' := fun heq => h rfl (by simp [Action.keys, hindex, ← heq])
        have hne : index.toNat ≠ index'.toNat := fun heq => hne (UInt32.toNat_inj.1 heq)
        simp [send?_light, assign, hindex, Light.setFieldOf, hne]
      · simp [assign, hindex]
    | material =>
      simp only [assign]
      split <;> rfl
    | _ =>
      simp only [assign]
      split <;> rfl

/-- Fields that are sent alike are so after the same assignments. -/
lemma send?_assign_congr {f f' : Fields} {key : StateKey} (h : f'.send? key = f.send? key)
    (a : Action) : (f'.assign a).send? key = (f.assign a).send? key := by
  cases a with
  | call c => exact h
  | material op words => cases key with
    | material =>
      have hmaterial : f'.material = f.material := DeviceCall.material.inj (Option.some.inj h)
      show some (DeviceCall.material (f'.material.setField op words)) = _
      rw [hmaterial]
      rfl
    | _ => exact h
  | light index op words => cases key with
    | light index' =>
      by_cases hindex : index.toNat < Light.count
      · by_cases hindex' : index'.toNat < Light.count
        · have hlight : f'.lights[index'.toNat] = f.lights[index'.toNat] := by
            simpa [send?_light, hindex'] using h
          by_cases heq : index = index'
          · subst heq
            simp [send?_light, assign, hindex, Light.setFieldOf, hlight]
          · have hne : index.toNat ≠ index'.toNat := fun h => heq (UInt32.toNat_inj.1 h)
            simp [send?_light, assign, hindex, hindex', Light.setFieldOf, hne, hlight]
        · simp [send?_light, hindex']
      · simpa [assign, hindex] using h
    | material =>
      simp only [assign]
      split <;> exact h
    | _ =>
      simp only [assign]
      split <;> exact h

lemma send?_assignAll_of_forall_notMem (f : Fields) {actions : List Action} {key : StateKey}
    (h : ∀ a ∈ actions, a.isCall = false → key ∉ a.keys) :
    (f.assignAll actions).send? key = f.send? key := by
  induction actions generalizing f with
  | nil => rfl
  | cons a rest ih =>
    rw [assignAll, List.foldl_cons]
    exact (ih _ fun b hb => h b (List.mem_cons_of_mem _ hb)).trans
      (f.send?_assign_of_notMem (h a List.mem_cons_self))

lemma send?_assignAll_congr {f f' : Fields} {key : StateKey} (h : f'.send? key = f.send? key)
    (actions : List Action) :
    (f'.assignAll actions).send? key = (f.assignAll actions).send? key := by
  induction actions generalizing f f' with
  | nil => exact h
  | cons a rest ih => exact ih (send?_assign_congr h a)

/-- What was assigned before is not sent if all of it that is sent with a state is assigned
again. -/
lemma send?_assignAll_assignAll (f : Fields) {earlier actions : List Action} {key : StateKey}
    (h : ∀ b ∈ earlier, b.isCall = false → key ∈ b.keys → ∃ a ∈ actions, a.Covers b) :
    ((f.assignAll earlier).assignAll actions).send? key = (f.assignAll actions).send? key := by
  induction earlier generalizing f with
  | nil => rfl
  | cons b rest ih =>
    refine (ih (f.assign b) fun b' hb' => h b' (List.mem_cons_of_mem _ hb')).trans ?_
    by_cases hb : b.isCall = false ∧ key ∈ b.keys
    · obtain ⟨a, ha, hcovers⟩ := h b List.mem_cons_self hb.1 hb.2
      rw [f.assignAll_assign_of_covers hcovers ha]
    · exact send?_assignAll_congr
        (f.send?_assign_of_notMem fun hcall hkey => hb ⟨hcall, hkey⟩) actions

end Fields

namespace Work

/-- The fields there are to work on. -/
def fields (w : Work) : Fields := ⟨w.lights, w.material⟩

lemma fields_assign (w : Work) (a : Action) : (w.assign a).fields = w.fields.assign a := by
  cases a with
  | call c => rfl
  | material op words => rfl
  | light index op words =>
    simp only [assign, assignLight, Fields.assign, fields]
    split <;> rfl

lemma fields_assignAll (w : Work) (actions : List Action) :
    (w.assignAll actions).fields = w.fields.assignAll actions := by
  induction actions generalizing w with
  | nil => rfl
  | cons a rest ih =>
    have hcons : w.assignAll (a :: rest) = (w.assign a).assignAll rest := rfl
    rw [hcons, ih, fields_assign]
    rfl

/-- What is sent in the end are all fields that are sent with some states. -/
lemma send?_of_mem_flushCalls {w : Work} {c : DeviceCall} (hc : c ∈ w.flushCalls) {key : StateKey}
    (hkey : key ∈ c.keys) : w.fields.send? key = some c := by
  rcases List.mem_append.1 hc with hc | hc
  · obtain ⟨i, -, hi⟩ := List.mem_filterMap.1 hc
    split at hi
    · cases hi
      obtain rfl := List.mem_singleton.1 hkey
      have hofNat : (UInt32.ofNat i.val).toNat = i.val :=
        UInt32.toNat_ofNat_of_lt' (Nat.lt_trans i.isLt (by decide))
      simp [Fields.send?_light, fields, hofNat]
    · cases hi
  · rw [materialCalls] at hc
    split at hc
    · obtain rfl := List.mem_singleton.1 hc
      obtain rfl := List.mem_singleton.1 hkey
      rfl
    · cases hc

end Work

end ShaderEffect
