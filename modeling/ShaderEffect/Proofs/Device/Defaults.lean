import ShaderEffect.Proofs.Device

/-!
# Devices keep no defaults

A state that is set to a value that equals its default is taken out of its table, so no table ever
has an entry for a default (`Device.Sparse.applyAll`). What a device answers then leaves one way to
keep it: devices that answer every query alike keep the same (`Device.Sparse.ext`).

Two notions of equality meet here. Whether a value is a default is asked of numbers, so that both
zeros are; whether two devices keep the same is asked of words.
-/

namespace ShaderEffect

/-! ### Values that count as equal -/

/-- Equality of numbers: the two zeros are equal, and a NaN equals nothing. -/
def Single.Equal (x y : Single) : Prop :=
  x.isNaN = false ∧ y.isNaN = false ∧ (x = y ∨ x.isZero = true ∧ y.isZero = true)

/-- A type of values that devices keep by key. -/
class KeptValue (ν : Type) where
  /-- The value of a state that was never set. -/
  unset : ν
  /-- Whether two values count as equal. -/
  Equal : ν → ν → Prop
  equal_unset : Equal unset unset

namespace KeptValue

instance : KeptValue UInt32 := ⟨0, Eq, rfl⟩

instance : KeptValue Int32 := ⟨0, Eq, rfl⟩

instance : KeptValue Bool := ⟨false, Eq, rfl⟩

instance : KeptValue Single := ⟨.zero, Single.Equal, by decide, by decide, .inl rfl⟩

instance {α : Type} {n : Nat} [KeptValue α] : KeptValue (Vector α n) where
  unset := Vector.replicate n unset
  Equal v w := ∀ i (_ : i < n), Equal v[i] w[i]
  equal_unset i hi := by simpa using equal_unset

instance : KeptValue Light where
  unset := {}
  Equal l m :=
    Equal l.type m.type ∧ Equal l.diffuse m.diffuse ∧ Equal l.specular m.specular ∧
      Equal l.ambient m.ambient ∧ Equal l.position m.position ∧ Equal l.direction m.direction ∧
      Equal l.range m.range ∧ Equal l.falloff m.falloff ∧ Equal l.attenuation0 m.attenuation0 ∧
      Equal l.attenuation1 m.attenuation1 ∧ Equal l.attenuation2 m.attenuation2 ∧
      Equal l.theta m.theta ∧ Equal l.phi m.phi
  equal_unset := by
    refine ⟨?_, ?_, ?_, ?_, ?_, ?_, ?_, ?_, ?_, ?_, ?_, ?_, ?_⟩ <;> exact equal_unset

/-- A test that tells the values that equal the default from all others. -/
def Recognizes {ν : Type} [KeptValue ν] (isDefault : ν → Bool) : Prop :=
  ∀ value, isDefault value = true ↔ Equal value unset

lemma recognizes_beq_zero : Recognizes fun value : UInt32 => value == 0 := fun _ => beq_iff_eq

lemma recognizes_intBeqZero : Recognizes fun value : Int32 => value == 0 := fun _ => beq_iff_eq

lemma recognizes_not : Recognizes fun value : Bool => !value := fun value => by
  cases value <;> simp [Equal, unset]

lemma recognizes_isZero : Recognizes Single.isZero := by
  intro x
  constructor
  · intro hzero
    -- the fraction is part of what is zero
    have hfraction : x.bits &&& 0x7FFFFF = 0 := by
      have hmask : (0x7FFFFF : UInt32) = 0x7FFFFFFF &&& 0x7FFFFF := by decide
      rw [hmask, ← UInt32.and_assoc, beq_iff_eq.1 hzero]
      decide
    have hnumber : x.isNaN = false := by simp [Single.isNaN, Single.fraction, hfraction]
    exact ⟨hnumber, by decide, .inr ⟨hzero, by decide⟩⟩
  · rintro ⟨-, -, rfl | ⟨hzero, -⟩⟩
    · decide
    · exact hzero

lemma Recognizes.all {α : Type} [KeptValue α] {isDefault : α → Bool} (h : Recognizes isDefault)
    (n : Nat) : Recognizes fun v : Vector α n => v.toList.all isDefault := by
  intro v
  rw [List.all_eq_true]
  constructor
  · intro hall i hi
    simpa [unset] using (h _).1 (hall v[i] (by simp))
  · intro hequal x hx
    obtain ⟨i, hi, rfl⟩ := List.mem_iff_getElem.1 hx
    rw [h]
    simpa [unset] using hequal i (by simpa using hi)

lemma recognizes_allZero (n : Nat) : Recognizes (allZero : Vector Single n → Bool) :=
  recognizes_isZero.all n

lemma recognizes_lightIsZero : Recognizes Light.isZero := by
  intro l
  simp only [Light.isZero, Bool.and_eq_true, recognizes_isZero _, recognizes_allZero _ _, and_assoc,
    recognizes_beq_zero l.type]
  rfl

end KeptValue

open KeptValue

/-! ### Tables -/

namespace Table

variable {κ ν : Type} [TableKey κ] [KeptValue ν]

/-- No entry of a table is for a default. -/
def Sparse (t : Table κ ν) : Prop := ∀ e ∈ t.entries, ¬ Equal e.2 unset

lemma sparse_empty : (empty : Table κ ν).Sparse := fun _ he => absurd he List.not_mem_nil

namespace Sparse

variable {s t : Table κ ν} {isDefault : ν → Bool}

lemma put (h : t.Sparse) (hdefault : Recognizes isDefault) (key : κ) (value : ν) :
    (t.put isDefault key value).Sparse := by
  rw [Table.put]
  split
  case isTrue => exact fun e he => h e (List.mem_of_mem_filter he)
  case isFalse hvalue =>
    intro e he
    obtain rfl | he := mem_insertEntry he
    · exact fun hequal => hvalue ((hdefault value).2 hequal)
    · exact h e he

lemma putAll {t : Table UInt32 ν} (h : t.Sparse) (hdefault : Recognizes isDefault) (start : UInt32)
    (values : List ν) : (t.putAll isDefault start values).Sparse := by
  rw [Table.putAll]
  induction values.zipIdx generalizing t with
  | nil => exact h
  | cons p rest ih => exact ih (h.put hdefault _ p.1)

/-- What a look-up finds is no default. -/
lemma ne_of_get?_eq_some (h : t.Sparse) {key : κ} {value : ν} (hget : t.get? key = some value) :
    value ≠ unset := by
  intro hunset
  obtain ⟨e, hfind, hvalue⟩ := Option.map_eq_some_iff.1 hget
  refine h e (List.mem_of_find?_eq_some hfind) ?_
  rw [hvalue, hunset]
  exact equal_unset

/-- Where a look-up finds nothing, another table that reads alike cannot have an entry: it would be
for the default. -/
lemma ext (hs : s.Sparse) (ht : t.Sparse)
    (h : ∀ key, (s.get? key).getD unset = (t.get? key).getD unset) : s = t := by
  refine ext_get? fun key => ?_
  have hkey := h key
  cases hget : s.get? key with
  | none =>
    cases hget' : t.get? key with
    | none => rfl
    | some w =>
      rw [hget, hget'] at hkey
      exact absurd hkey.symm (ht.ne_of_get?_eq_some hget')
  | some v =>
    cases hget' : t.get? key with
    | none =>
      rw [hget, hget'] at hkey
      exact absurd hkey (hs.ne_of_get?_eq_some hget)
    | some w =>
      rw [hget, hget'] at hkey
      exact congrArg some hkey

end Sparse

end Table

/-! ### Devices -/

/-- No constant register is kept that equals its default. -/
structure ConstantBank.Sparse (bank : ConstantBank) : Prop where
  floats : bank.floats.Sparse
  ints : bank.ints.Sparse
  bools : bank.bools.Sparse

lemma ConstantBank.Sparse.ext {bank bank' : ConstantBank} (h : bank.Sparse) (h' : bank'.Sparse)
    (floats : ∀ r, (bank.floats.get? r).getD unset = (bank'.floats.get? r).getD unset)
    (ints : ∀ r, (bank.ints.get? r).getD unset = (bank'.ints.get? r).getD unset)
    (bools : ∀ r, (bank.bools.get? r).getD unset = (bank'.bools.get? r).getD unset) :
    bank = bank' := by
  cases bank
  cases bank'
  simp only [ConstantBank.mk.injEq]
  exact ⟨h.floats.ext h'.floats floats, h.ints.ext h'.ints ints, h.bools.ext h'.bools bools⟩

namespace Device

/-- No table of a device has an entry for a default. The default of a texture is that there is none,
for which a table of textures can have no entry. -/
structure Sparse (d : Device) : Prop where
  renderStates : d.renderStates.Sparse
  textureStages : d.textureStages.Sparse
  samplers : d.samplers.Sparse
  transforms : d.transforms.Sparse
  lights : d.lights.Sparse
  lightsEnabled : d.lightsEnabled.Sparse
  constants : ∀ stage, (d.constants stage).Sparse

namespace Sparse

open Table (sparse_empty)

variable {d d' : Device}

lemma new : Sparse {} where
  renderStates := sparse_empty
  textureStages := sparse_empty
  samplers := sparse_empty
  transforms := sparse_empty
  lights := sparse_empty
  lightsEnabled := sparse_empty
  constants stage := by cases stage <;> exact ⟨sparse_empty, sparse_empty, sparse_empty⟩

lemma modifyConstants (h : d.Sparse) (stage : Stage) {f : ConstantBank → ConstantBank}
    (hf : ∀ bank : ConstantBank, bank.Sparse → (f bank).Sparse) :
    (d.modifyConstants stage f).Sparse := by
  have hconstants : ∀ other, ((d.modifyConstants stage f).constants other).Sparse := by
    intro other
    rw [constants_modifyConstants]
    split
    · exact hf _ (h.constants other)
    · exact h.constants other
  cases stage <;> exact { h with constants := hconstants }

/-- No call brings a default into a table. -/
lemma apply (h : d.Sparse) (call : DeviceCall) : (d.apply call).Sparse := by
  cases call with
  | renderState state value =>
    exact { h with renderStates := h.renderStates.put recognizes_beq_zero state value }
  | textureStage stage type value =>
    exact { h with textureStages := h.textureStages.put recognizes_beq_zero (stage, type) value }
  | samplerState sampler type value =>
    exact { h with samplers := h.samplers.put recognizes_beq_zero (sampler, type) value }
  | texture stage texture => exact { h with }
  | transform state matrix =>
    exact { h with transforms := h.transforms.put ((recognizes_allZero 4).all 4) state matrix }
  | light index light =>
    exact { h with lights := h.lights.put recognizes_lightIsZero index light }
  | lightEnable index enabled =>
    exact { h with lightsEnabled := h.lightsEnabled.put recognizes_not index enabled }
  | shader stage shader => cases stage <;> exact { h with }
  | material _ | vertexFormat _ | patchMode _ => exact { h with }
  | floats stage start values =>
    rw [Device.apply]
    refine h.modifyConstants stage fun bank hbank => ?_
    exact { hbank with floats := hbank.floats.putAll (recognizes_allZero 4) start (fours values) }
  | ints stage start values =>
    rw [Device.apply]
    refine h.modifyConstants stage fun bank hbank => ?_
    exact { hbank with
      ints := hbank.ints.putAll (recognizes_intBeqZero.all 4) start (fours values) }
  | bools stage start values =>
    rw [Device.apply]
    refine h.modifyConstants stage fun bank hbank => ?_
    exact { hbank with bools := hbank.bools.putAll recognizes_not start values }

lemma applyAll (h : d.Sparse) (calls : List DeviceCall) : (d.applyAll calls).Sparse := by
  induction calls generalizing d with
  | nil => exact h
  | cons call rest ih => exact ih (h.apply call)

/-- Devices that keep no defaults and answer every query alike keep the same. -/
lemma ext (h : d.Sparse) (h' : d'.Sparse) (hquery : ∀ key, d.query key = d'.query key) :
    d = d' := by
  have renderStates : d.renderStates = d'.renderStates :=
    h.renderStates.ext h'.renderStates fun state =>
      (DeviceCall.renderState.inj (hquery (.renderState state))).2
  have textureStages : d.textureStages = d'.textureStages :=
    h.textureStages.ext h'.textureStages fun (stage, type) =>
      (DeviceCall.textureStage.inj (hquery (.textureStage stage type))).2.2
  have samplers : d.samplers = d'.samplers :=
    h.samplers.ext h'.samplers fun (sampler, type) =>
      (DeviceCall.samplerState.inj (hquery (.samplerState sampler type))).2.2
  have textures : d.textures = d'.textures :=
    Table.ext_get? fun stage => (DeviceCall.texture.inj (hquery (.texture stage))).2
  have transforms : d.transforms = d'.transforms :=
    h.transforms.ext h'.transforms fun state =>
      (DeviceCall.transform.inj (hquery (.transform state))).2
  have lights : d.lights = d'.lights :=
    h.lights.ext h'.lights fun index => (DeviceCall.light.inj (hquery (.light index))).2
  have lightsEnabled : d.lightsEnabled = d'.lightsEnabled :=
    h.lightsEnabled.ext h'.lightsEnabled fun index =>
      (DeviceCall.lightEnable.inj (hquery (.lightEnable index))).2
  have constants : ∀ stage, d.constants stage = d'.constants stage := fun stage =>
    (h.constants stage).ext (h'.constants stage)
      (fun r => Vector.toList_inj.1 (DeviceCall.floats.inj (hquery (.floats stage r))).2.2)
      (fun r => Vector.toList_inj.1 (DeviceCall.ints.inj (hquery (.ints stage r))).2.2)
      (fun r => List.singleton_inj.1 (DeviceCall.bools.inj (hquery (.bools stage r))).2.2)
  have shader : ∀ stage, d.shader stage = d'.shader stage := fun stage =>
    (DeviceCall.shader.inj (hquery (.shader stage))).2
  have material := DeviceCall.material.inj (hquery .material)
  have vertexFormat := DeviceCall.vertexFormat.inj (hquery .vertexFormat)
  have patchMode := DeviceCall.patchMode.inj (hquery .patchMode)
  cases d
  cases d'
  simp only [Device.mk.injEq]
  exact ⟨renderStates, textureStages, samplers, textures, transforms, lights, lightsEnabled,
    material, shader .vertex, shader .pixel, vertexFormat, patchMode, constants .vertex,
    constants .pixel⟩

end Sparse

end Device

/-! ### Objects without identities -/

/-- An object without its identity. -/
def Shared.anonymous {α : Type} (o : Shared α) : Shared α := { o with id := 0 }

/-- A call without the identities of objects. -/
def DeviceCall.anonymous : DeviceCall → DeviceCall
  | .texture stage t => .texture stage (t.map Shared.anonymous)
  | .shader stage s => .shader stage (s.map Shared.anonymous)
  | call => call

namespace Device

/-- A device without the identities of objects. -/
def anonymous (d : Device) : Device :=
  { d with
    textures := d.textures.mapValues Shared.anonymous
    vertexShader := d.vertexShader.map Shared.anonymous
    pixelShader := d.pixelShader.map Shared.anonymous }

lemma query_anonymous (d : Device) (key : StateKey) :
    d.anonymous.query key = (d.query key).anonymous := by
  cases key with
  | texture stage => exact congrArg (DeviceCall.texture stage) (Table.get?_mapValues ..)
  | shader stage | floats stage _ | ints stage _ | bools stage _ => cases stage <;> rfl
  | _ => rfl

lemma Sparse.anonymous {d : Device} (h : d.Sparse) : d.anonymous.Sparse :=
  { h with constants := fun stage => match stage with
    | .vertex => h.constants .vertex
    | .pixel => h.constants .pixel }

/-- Whatever calls a device carries out, no table of it ever has an entry for a default. So it is
known from its answers what a device keeps: two devices keep the same exactly if they answer every
query alike, both when objects are told apart by their identity and when they are known by what
they contain. -/
theorem eq_iff_query_eq (calls others : List DeviceCall) :
    let d : Device := applyAll {} calls
    let d' : Device := applyAll {} others
    d.Sparse ∧ (d = d' ↔ ∀ key, d.query key = d'.query key) ∧
      (d.anonymous = d'.anonymous ↔ ∀ key, (d.query key).anonymous = (d'.query key).anonymous) := by
  intro d d'
  have hd : d.Sparse := Sparse.new.applyAll calls
  have hd' : d'.Sparse := Sparse.new.applyAll others
  refine ⟨hd, ⟨fun heq key => by rw [heq], hd.ext hd'⟩, fun heq key => ?_, fun hquery => ?_⟩
  · rw [← query_anonymous, ← query_anonymous, heq]
  · refine hd.anonymous.ext hd'.anonymous fun key => ?_
    rw [query_anonymous, query_anonymous]
    exact hquery key

/-- A register of which only the sign of zero is set is not kept, and what was there is gone. -/
example :
    (applyAll {} [.floats .vertex 3 [.one, .zero, .zero, .zero, .one],
      .floats .vertex 3 (List.replicate 4 ⟨0x80000000⟩)]).vertexConstants.floats.entries = [] := by
  decide

end Device

end ShaderEffect
