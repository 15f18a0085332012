import Mathlib.Data.List.Nodup
import Mathlib.Tactic.Common
import ShaderEffect.Device.Snapshot
import ShaderEffect.Table.Lookup

/-!
# Devices under calls

A call sets the states of its keys, whatever the device held before, and leaves all others alone. So
what a device answers after some calls is what the last call with the key left. The saved states of
a device, set back, make it answer as it did when they were saved, and nothing else.
-/

namespace ShaderEffect

/-! ### Registers -/

namespace Table

variable {κ ν : Type} [TableKey κ]

open TableKey

lemma get?_put (t : Table κ ν) (isDefault : ν → Bool) (key other : κ) (value : ν) :
    (t.put isDefault key value).get? other =
      if rank key = rank other then (if isDefault value then none else some value)
      else t.get? other := by
  rw [put]
  split
  · rw [get?_erase]
  · rw [get?_insert]

lemma get?_put_self (t : Table κ ν) (isDefault : ν → Bool) (key : κ) (value : ν) :
    (t.put isDefault key value).get? key = if isDefault value then none else some value := by
  rw [get?_put, if_pos rfl]

/-- What is read back of a value that was put: the default, if it is not kept. -/
def kept (isDefault : ν → Bool) (default value : ν) : ν :=
  if isDefault value then default else value

lemma kept_kept {isDefault : ν → Bool} {default : ν} (h : isDefault default = true) (value : ν) :
    kept isDefault default (kept isDefault default value) = kept isDefault default value := by
  by_cases hvalue : isDefault value = true <;> simp [kept, hvalue, h]

lemma getD_put_self (t : Table κ ν) (isDefault : ν → Bool) (key : κ) (value default : ν) :
    ((t.put isDefault key value).get? key).getD default = kept isDefault default value := by
  rw [get?_put_self, kept]
  split <;> rfl

lemma get?_put_of_ne (t : Table κ ν) (isDefault : ν → Bool) {key other : κ} (value : ν)
    (h : key ≠ other) : (t.put isDefault key value).get? other = t.get? other := by
  rw [get?_put, if_neg fun hrank => h (rank_injective _ _ hrank)]

lemma get?_set_self (t : Table κ ν) (key : κ) (value : Option ν) :
    (t.set key value).get? key = value := by
  rw [get?_set, if_pos rfl]

lemma get?_set_of_ne (t : Table κ ν) {key other : κ} (value : Option ν) (h : key ≠ other) :
    (t.set key value).get? other = t.get? other := by
  rw [get?_set, if_neg fun hrank => h (rank_injective _ _ hrank)]

/-- Values put one after the other leave a register alone if none is for it. -/
lemma get?_foldl_put_of_forall_ne (isDefault : ν → Bool) (start r : UInt32)
    (pairs : List (ν × Nat)) (t : Table UInt32 ν)
    (h : ∀ p ∈ pairs, start + UInt32.ofNat p.2 ≠ r) :
    (pairs.foldl (fun t (value, i) => t.put isDefault (start + UInt32.ofNat i) value) t).get? r =
      t.get? r := by
  induction pairs generalizing t with
  | nil => rfl
  | cons p rest ih =>
    rw [List.foldl_cons, ih _ fun q hq => h q (List.mem_cons_of_mem _ hq),
      get?_put_of_ne _ _ _ (h p List.mem_cons_self)]

/-- Values put one after the other leave the last one that is for a register. -/
lemma exists_get?_foldl_put (isDefault : ν → Bool) (start r : UInt32) (pairs : List (ν × Nat))
    (h : ∃ p ∈ pairs, start + UInt32.ofNat p.2 = r) :
    ∃ value, ∀ t : Table UInt32 ν,
      (pairs.foldl (fun t (value, i) => t.put isDefault (start + UInt32.ofNat i) value) t).get? r =
        if isDefault value then none else some value := by
  induction pairs with
  | nil => simp at h
  | cons p rest ih =>
    by_cases hrest : ∃ q ∈ rest, start + UInt32.ofNat q.2 = r
    · obtain ⟨value, hvalue⟩ := ih hrest
      exact ⟨value, fun t => by rw [List.foldl_cons, hvalue]⟩
    · have hne : ∀ q ∈ rest, start + UInt32.ofNat q.2 ≠ r := fun q hq heq => hrest ⟨q, hq, heq⟩
      have hp : start + UInt32.ofNat p.2 = r := by
        obtain ⟨q, hq, heq⟩ := h
        rcases List.mem_cons.1 hq with rfl | hq
        · exact heq
        · exact absurd heq (hne q hq)
      refine ⟨p.1, fun t => ?_⟩
      rw [List.foldl_cons, get?_foldl_put_of_forall_ne _ _ _ _ _ hne, ← hp]
      exact get?_put_self ..

lemma mem_registersFrom {start r : UInt32} {count : Nat} :
    r ∈ registersFrom start count ↔ ∃ i < count, start + UInt32.ofNat i = r := by
  simp [registersFrom]

lemma exists_mem_zipIdx {α : Type} (values : List α) (p : Nat → Prop) :
    (∃ q ∈ values.zipIdx, p q.2) ↔ ∃ i < values.length, p i := by
  constructor
  · rintro ⟨q, hq, hp⟩
    exact ⟨q.2, List.snd_lt_of_mem_zipIdx hq, hp⟩
  · rintro ⟨i, hi, hp⟩
    exact ⟨(values[i], i), List.mk_mem_zipIdx_iff_getElem?.2 (List.getElem?_eq_getElem hi), hp⟩

lemma get?_putAll_of_notMem (t : Table UInt32 ν) (isDefault : ν → Bool) (start r : UInt32)
    (values : List ν) (h : r ∉ registersFrom start values.length) :
    (t.putAll isDefault start values).get? r = t.get? r := by
  refine get?_foldl_put_of_forall_ne _ _ _ _ _ fun p hp heq => h ?_
  exact mem_registersFrom.2 ((exists_mem_zipIdx values _).1 ⟨p, hp, heq⟩)

lemma exists_getD_putAll (isDefault : ν → Bool) (default : ν) {start r : UInt32} {values : List ν}
    (h : r ∈ registersFrom start values.length) :
    ∃ value, ∀ t : Table UInt32 ν,
      ((t.putAll isDefault start values).get? r).getD default = kept isDefault default value := by
  obtain ⟨value, hvalue⟩ := exists_get?_foldl_put isDefault start r values.zipIdx
    ((exists_mem_zipIdx values _).2 (mem_registersFrom.1 h))
  refine ⟨value, fun t => ?_⟩
  rw [putAll, hvalue, kept]
  split <;> rfl

lemma getD_putAll_singleton (t : Table UInt32 ν) (isDefault : ν → Bool) (r : UInt32)
    (value default : ν) :
    ((t.putAll isDefault r [value]).get? r).getD default = kept isDefault default value := by
  have h : r + UInt32.ofNat 0 = r := by simp
  rw [← getD_put_self t isDefault r value default]
  simp only [putAll, List.zipIdx_cons, List.zipIdx_nil, List.foldl_cons, List.foldl_nil, h]

end Table

@[simp] lemma length_fours {α : Type} (values : List α) :
    (fours values).length = values.length / 4 := by
  match values with
  | a :: b :: c :: d :: rest =>
    rw [fours, List.length_cons, length_fours rest]
    simp only [List.length_cons]
    omega
  | [] | [_] | [_, _] | [_, _, _] => simp [fours]

lemma fours_toList {α : Type} (v : Vector α 4) : fours v.toList = [v] := by
  obtain ⟨⟨values⟩, hv⟩ := v
  match values, hv with
  | [a, b, c, d], _ => rfl

/-! ### One call -/

namespace Device

open Table (kept kept_kept getD_put_self getD_putAll_singleton exists_getD_putAll)

@[simp] lemma constants_modifyConstants (d : Device) (stage other : Stage)
    (f : ConstantBank → ConstantBank) :
    (d.modifyConstants stage f).constants other =
      if stage = other then f (d.constants other) else d.constants other := by
  cases stage <;> cases other <;> rfl

/-- The key of the state that a query asks for. -/
@[simp] lemma keys_query (d : Device) (key : StateKey) : (d.query key).keys = [key] := by
  cases key <;> simp [query, DeviceCall.keys, registersFrom]

/-- A call leaves the states alone whose keys it does not have. -/
lemma query_apply_of_notMem (d : Device) {c : DeviceCall} {key : StateKey} (h : key ∉ c.keys) :
    (d.apply c).query key = d.query key := by
  cases c with
  | renderState state value =>
    cases key with
    | renderState other =>
      simp only [DeviceCall.keys, List.mem_singleton, StateKey.renderState.injEq] at h
      simp only [apply, query, Table.get?_put_of_ne _ _ _ (Ne.symm h)]
    | _ => rfl
  | textureStage stage type value =>
    cases key with
    | textureStage stage' type' =>
      have hne : (stage, type) ≠ (stage', type') := fun heq => by
        cases heq
        exact h (List.mem_singleton.2 rfl)
      simp only [apply, query, Table.get?_put_of_ne _ _ _ hne]
    | _ => rfl
  | samplerState sampler type value =>
    cases key with
    | samplerState sampler' type' =>
      have hne : (sampler, type) ≠ (sampler', type') := fun heq => by
        cases heq
        exact h (List.mem_singleton.2 rfl)
      simp only [apply, query, Table.get?_put_of_ne _ _ _ hne]
    | _ => rfl
  | texture stage texture =>
    cases key with
    | texture other =>
      simp only [DeviceCall.keys, List.mem_singleton, StateKey.texture.injEq] at h
      simp only [apply, query, Table.get?_set_of_ne _ _ (Ne.symm h)]
    | _ => rfl
  | transform state matrix =>
    cases key with
    | transform other =>
      simp only [DeviceCall.keys, List.mem_singleton, StateKey.transform.injEq] at h
      simp only [apply, query, Table.get?_put_of_ne _ _ _ (Ne.symm h)]
    | _ => rfl
  | light index light =>
    cases key with
    | light other =>
      simp only [DeviceCall.keys, List.mem_singleton, StateKey.light.injEq] at h
      simp only [apply, query, Table.get?_put_of_ne _ _ _ (Ne.symm h)]
    | _ => rfl
  | lightEnable index enabled =>
    cases key with
    | lightEnable other =>
      simp only [DeviceCall.keys, List.mem_singleton, StateKey.lightEnable.injEq] at h
      simp only [apply, query, Table.get?_put_of_ne _ _ _ (Ne.symm h)]
    | _ => rfl
  | material material =>
    cases key with
    | material => simp [DeviceCall.keys] at h
    | _ => rfl
  | shader stage shader =>
    cases stage <;> cases key with
    | shader other => cases other <;> first | rfl | simp [DeviceCall.keys] at h
    | _ => rfl
  | vertexFormat format =>
    cases key with
    | vertexFormat => simp [DeviceCall.keys] at h
    | _ => rfl
  | patchMode segments =>
    cases key with
    | patchMode => simp [DeviceCall.keys] at h
    | _ => rfl
  | floats stage start values =>
    cases key with
    | floats other register =>
      simp only [apply, query, constants_modifyConstants]
      split
      case isTrue heq =>
        subst heq
        rw [Table.get?_putAll_of_notMem _ _ _ _ _ fun hmem => h ?_]
        exact List.mem_map.2 ⟨register, by simpa using hmem, rfl⟩
      case isFalse => rfl
    | shader other | ints other _ | bools other _ => cases stage <;> cases other <;> rfl
    | _ => cases stage <;> rfl
  | ints stage start values =>
    cases key with
    | ints other register =>
      simp only [apply, query, constants_modifyConstants]
      split
      case isTrue heq =>
        subst heq
        rw [Table.get?_putAll_of_notMem _ _ _ _ _ fun hmem => h ?_]
        exact List.mem_map.2 ⟨register, by simpa using hmem, rfl⟩
      case isFalse => rfl
    | shader other | floats other _ | bools other _ => cases stage <;> cases other <;> rfl
    | _ => cases stage <;> rfl
  | bools stage start values =>
    cases key with
    | bools other register =>
      simp only [apply, query, constants_modifyConstants]
      split
      case isTrue heq =>
        subst heq
        rw [Table.get?_putAll_of_notMem _ _ _ _ _ fun hmem => h ?_]
        exact List.mem_map.2 ⟨register, hmem, rfl⟩
      case isFalse => rfl
    | shader other | floats other _ | ints other _ => cases stage <;> cases other <;> rfl
    | _ => cases stage <;> rfl

/-- What a call leaves under a key of its own: it does not depend on the device, and set again it
stays. -/
lemma exists_query_apply_of_mem {c : DeviceCall} {key : StateKey} (h : key ∈ c.keys) :
    ∃ q, (∀ d : Device, (d.apply c).query key = q) ∧ ∀ d : Device, (d.apply q).query key = q := by
  cases c with
  | renderState state value =>
    obtain rfl := List.mem_singleton.1 h
    refine ⟨.renderState state (kept (· == 0) 0 value), fun d => ?_, fun d => ?_⟩
    · simp only [apply, query, getD_put_self]
    · simp only [apply, query, getD_put_self]
      rw [kept_kept]
      decide
  | textureStage stage type value =>
    obtain rfl := List.mem_singleton.1 h
    refine ⟨.textureStage stage type (kept (· == 0) 0 value), fun d => ?_, fun d => ?_⟩
    · simp only [apply, query, getD_put_self]
    · simp only [apply, query, getD_put_self]
      rw [kept_kept]
      decide
  | samplerState sampler type value =>
    obtain rfl := List.mem_singleton.1 h
    refine ⟨.samplerState sampler type (kept (· == 0) 0 value), fun d => ?_, fun d => ?_⟩
    · simp only [apply, query, getD_put_self]
    · simp only [apply, query, getD_put_self]
      rw [kept_kept]
      decide
  | texture stage texture =>
    obtain rfl := List.mem_singleton.1 h
    refine ⟨.texture stage texture, fun d => ?_, fun d => ?_⟩ <;>
      simp only [apply, query, Table.get?_set_self]
  | transform state matrix =>
    obtain rfl := List.mem_singleton.1 h
    refine ⟨.transform state (kept (·.toList.all allZero) Matrix4.zero matrix), fun d => ?_,
      fun d => ?_⟩
    · simp only [apply, query, getD_put_self]
    · simp only [apply, query, getD_put_self]
      rw [kept_kept]
      decide
  | light index light =>
    obtain rfl := List.mem_singleton.1 h
    refine ⟨.light index (kept Light.isZero {} light), fun d => ?_, fun d => ?_⟩
    · simp only [apply, query, getD_put_self]
    · simp only [apply, query, getD_put_self]
      rw [kept_kept]
      decide
  | lightEnable index enabled =>
    obtain rfl := List.mem_singleton.1 h
    refine ⟨.lightEnable index (kept (!·) false enabled), fun d => ?_, fun d => ?_⟩
    · simp only [apply, query, getD_put_self]
    · simp only [apply, query, getD_put_self]
      rw [kept_kept]
      decide
  | material material =>
    obtain rfl := List.mem_singleton.1 h
    exact ⟨.material material, fun _ => rfl, fun _ => rfl⟩
  | shader stage shader =>
    obtain rfl := List.mem_singleton.1 h
    refine ⟨.shader stage shader, fun _ => ?_, fun _ => ?_⟩ <;> cases stage <;> rfl
  | vertexFormat format =>
    obtain rfl := List.mem_singleton.1 h
    exact ⟨.vertexFormat format, fun _ => rfl, fun _ => rfl⟩
  | patchMode segments =>
    obtain rfl := List.mem_singleton.1 h
    exact ⟨.patchMode segments, fun _ => rfl, fun _ => rfl⟩
  | floats stage start values =>
    obtain ⟨register, hr, rfl⟩ := List.mem_map.1 h
    rw [← length_fours] at hr
    obtain ⟨value, hvalue⟩ := exists_getD_putAll allZero Float4.zero hr
    refine ⟨.floats stage register (kept allZero Float4.zero value).toList, fun d => ?_,
      fun d => ?_⟩
    · simp only [apply, query, constants_modifyConstants, if_pos, hvalue]
    · simp only [apply, query, constants_modifyConstants, if_pos, fours_toList,
        getD_putAll_singleton]
      rw [kept_kept]
      decide
  | ints stage start values =>
    obtain ⟨register, hr, rfl⟩ := List.mem_map.1 h
    rw [← length_fours] at hr
    obtain ⟨value, hvalue⟩ := exists_getD_putAll (·.toList.all (· == 0))
      (Vector.replicate 4 (0 : Int32)) hr
    refine ⟨.ints stage register (kept (·.toList.all (· == 0)) (Vector.replicate 4 0) value).toList,
      fun d => ?_, fun d => ?_⟩
    · simp only [apply, query, constants_modifyConstants, if_pos, hvalue]
    · simp only [apply, query, constants_modifyConstants, if_pos, fours_toList,
        getD_putAll_singleton]
      rw [kept_kept]
      decide
  | bools stage start values =>
    obtain ⟨register, hr, rfl⟩ := List.mem_map.1 h
    obtain ⟨value, hvalue⟩ := exists_getD_putAll (!·) false hr
    refine ⟨.bools stage register [kept (!·) false value], fun d => ?_, fun d => ?_⟩
    · simp only [apply, query, constants_modifyConstants, if_pos, hvalue]
    · simp only [apply, query, constants_modifyConstants, if_pos, getD_putAll_singleton]
      rw [kept_kept]
      decide

lemma query_apply_congr (d d' : Device) {c : DeviceCall} {key : StateKey} (h : key ∈ c.keys) :
    (d.apply c).query key = (d'.apply c).query key := by
  obtain ⟨q, hq, -⟩ := exists_query_apply_of_mem h
  rw [hq, hq]

/-! ### Several calls -/

@[simp] lemma applyAll_nil (d : Device) : d.applyAll [] = d := rfl

@[simp] lemma applyAll_cons (d : Device) (c : DeviceCall) (calls : List DeviceCall) :
    d.applyAll (c :: calls) = (d.apply c).applyAll calls := rfl

lemma applyAll_append (d : Device) (calls others : List DeviceCall) :
    d.applyAll (calls ++ others) = (d.applyAll calls).applyAll others :=
  List.foldl_append

/-- Calls leave the states alone whose keys none of them has. -/
lemma query_applyAll_of_forall_notMem (d : Device) {calls : List DeviceCall} {key : StateKey}
    (h : ∀ c ∈ calls, key ∉ c.keys) : (d.applyAll calls).query key = d.query key := by
  induction calls generalizing d with
  | nil => rfl
  | cons c rest ih =>
    rw [applyAll_cons, ih _ fun c hc => h c (List.mem_cons_of_mem _ hc),
      query_apply_of_notMem d (h c List.mem_cons_self)]

/-- The last call with a key decides what is answered. -/
lemma query_applyAll_append_cons (d d' : Device) (calls rest : List DeviceCall) {c : DeviceCall}
    {key : StateKey} (hc : key ∈ c.keys) (hrest : ∀ c ∈ rest, key ∉ c.keys) :
    (d.applyAll (calls ++ c :: rest)).query key = (d'.apply c).query key := by
  rw [applyAll_append, applyAll_cons, query_applyAll_of_forall_notMem _ hrest,
    query_apply_congr _ d' hc]

/-! ### Setting states back -/

/-- No state is kept in a form that setting it would not give. -/
def Canonical (d : Device) : Prop := ∀ key, (d.apply (d.query key)).query key = d.query key

lemma canonical_default : Canonical {} := by
  intro key
  cases key with
  | shader stage | floats stage _ | ints stage _ | bools stage _ => cases stage <;> rfl
  | light index =>
    simp only [query, Table.get?_empty, Option.getD_none, apply, getD_put_self]
    rfl
  | _ => rfl

/-- Calls keep a device canonical. -/
lemma Canonical.apply {d : Device} (h : Canonical d) (c : DeviceCall) : Canonical (d.apply c) := by
  intro key
  by_cases hkey : key ∈ c.keys
  · obtain ⟨q, hq, hback⟩ := exists_query_apply_of_mem hkey
    rw [hq, hback]
  · rw [query_apply_of_notMem d hkey, query_apply_congr _ d (by simp), h key]

lemma Canonical.applyAll {d : Device} (h : Canonical d) (calls : List DeviceCall) :
    Canonical (d.applyAll calls) := by
  induction calls generalizing d with
  | nil => exact h
  | cons c rest ih => exact ih (h.apply c)

/-- Setting states back to what a canonical device held sets these and no others. -/
lemma Canonical.query_applyAll_map_query {d : Device} (h : Canonical d) (d' : Device)
    (keys : List StateKey) (key : StateKey) :
    (d'.applyAll (keys.map d.query)).query key =
      if key ∈ keys then d.query key else d'.query key := by
  induction keys generalizing d' with
  | nil => rfl
  | cons first rest ih =>
    rw [List.map_cons, applyAll_cons, ih]
    by_cases hrest : key ∈ rest
    · rw [if_pos hrest, if_pos (List.mem_cons_of_mem _ hrest)]
    · rw [if_neg hrest]
      by_cases hfirst : key = first
      · subst hfirst
        rw [if_pos List.mem_cons_self, query_apply_congr _ d (by simp), h key]
      · rw [if_neg (by simp [hfirst, hrest]), query_apply_of_notMem _ (by simpa using hfirst)]

end Device

/-! ### Saving -/

lemma mem_firstOccurrences {α : Type} [BEq α] [LawfulBEq α] [Hashable α] {seen : Std.HashSet α}
    {found l : List α} (hseen : ∀ a, seen.contains a = true ↔ a ∈ found) {a : α} :
    a ∈ firstOccurrences seen found l ↔ a ∈ found ∨ a ∈ l := by
  induction l generalizing seen found with
  | nil => simp [firstOccurrences]
  | cons b rest ih =>
    rw [firstOccurrences]
    split
    case isTrue hb =>
      rw [ih hseen, List.mem_cons]
      have hb := (hseen b).1 hb
      constructor
      · exact fun h => h.imp_right .inr
      · rintro (h | rfl | h)
        · exact .inl h
        · exact .inl hb
        · exact .inr h
    case isFalse =>
      have hseen' : ∀ x, (seen.insert b).contains x = true ↔ x ∈ b :: found := fun x => by
        simp [Std.HashSet.contains_insert, ← hseen x, eq_comm (a := b)]
      rw [ih hseen', List.mem_cons, List.mem_cons, or_assoc, or_left_comm]

/-- The saved keys are those of the calls that the flags save. -/
lemma mem_savedKeys {flags : BeginFlags} {calls : List DeviceCall} {key : StateKey} :
    key ∈ savedKeys flags calls ↔ flags.saves key = true ∧ ∃ c ∈ calls, key ∈ c.keys := by
  rw [savedKeys, mem_firstOccurrences (by simp)]
  simp [and_comm]

lemma nodup_firstOccurrences {α : Type} [BEq α] [LawfulBEq α] [Hashable α] {seen : Std.HashSet α}
    {found l : List α} (hseen : ∀ a, seen.contains a = true ↔ a ∈ found) (hfound : found.Nodup) :
    (firstOccurrences seen found l).Nodup := by
  induction l generalizing seen found with
  | nil => exact List.nodup_reverse.2 hfound
  | cons b rest ih =>
    rw [firstOccurrences]
    split
    case isTrue => exact ih hseen hfound
    case isFalse hb =>
      refine ih (fun x => ?_) (List.nodup_cons.2 ⟨fun hmem => hb ((hseen b).2 hmem), hfound⟩)
      simp [Std.HashSet.contains_insert, ← hseen x, eq_comm (a := b)]

/-- No state is saved twice. -/
lemma nodup_savedKeys (flags : BeginFlags) (calls : List DeviceCall) :
    (savedKeys flags calls).Nodup :=
  nodup_firstOccurrences (by simp) List.nodup_nil

/-- To set saved states back is to answer as when they were saved, for these and no others. -/
lemma Device.Canonical.query_applyAll_save {d : Device} (h : d.Canonical) (d' : Device)
    (flags : BeginFlags) (calls : List DeviceCall) (key : StateKey) :
    (d'.applyAll (d.save flags calls)).query key =
      if key ∈ savedKeys flags calls then d.query key else d'.query key :=
  h.query_applyAll_map_query d' _ key

end ShaderEffect
