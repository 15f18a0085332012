import ShaderEffect.Device.Call

/-!
# The states of a device

A device keeps each state under its key. A state set to its default is not kept at all, so a device
looks the same whether a state was never set or was set back; floats count as default if they equal
zero, whatever their sign. Three states that exist once are kept as given.
-/

namespace ShaderEffect

/-- The constant registers of one stage. -/
structure ConstantBank where
  floats : Table UInt32 Float4 := .empty
  ints : Table UInt32 (Vector Int32 4) := .empty
  bools : Table UInt32 Bool := .empty

/-- The states of a device. -/
structure Device where
  renderStates : Table UInt32 UInt32 := .empty
  textureStages : Table (UInt32 × UInt32) UInt32 := .empty
  samplers : Table (UInt32 × UInt32) UInt32 := .empty
  textures : Table UInt32 (Shared Texture) := .empty
  transforms : Table UInt32 Matrix4 := .empty
  lights : Table UInt32 Light := .empty
  lightsEnabled : Table UInt32 Bool := .empty
  material : Material := {}
  vertexShader : Option (Shared Shader) := none
  pixelShader : Option (Shared Shader) := none
  vertexFormat : UInt32 := 0
  patchMode : Single := .zero
  vertexConstants : ConstantBank := {}
  pixelConstants : ConstantBank := {}

instance : Inhabited Device := ⟨{}⟩

/-- Split into groups of four; a short tail is left out. -/
def fours {α : Type} : List α → List (Vector α 4)
  | a :: b :: c :: d :: rest => #v[a, b, c, d] :: fours rest
  | _ => []

namespace Table

variable {κ ν : Type} [TableKey κ]

/-- Keep a value under a key unless it is a default. -/
def put (t : Table κ ν) (isDefault : ν → Bool) (key : κ) (value : ν) : Table κ ν :=
  if isDefault value then t.erase key else t.insert key value

/-- Keep values under consecutive registers. -/
def putAll (t : Table UInt32 ν) (isDefault : ν → Bool) (start : UInt32) (values : List ν) :
    Table UInt32 ν :=
  (values.zipIdx).foldl (fun t (value, i) => t.put isDefault (start + UInt32.ofNat i) value) t

end Table

namespace Device

/-- The constants of a stage. -/
def constants (d : Device) : Stage → ConstantBank
  | .vertex => d.vertexConstants
  | .pixel => d.pixelConstants

/-- Change the constants of a stage. -/
def modifyConstants (d : Device) (stage : Stage) (f : ConstantBank → ConstantBank) : Device :=
  match stage with
  | .vertex => { d with vertexConstants := f d.vertexConstants }
  | .pixel => { d with pixelConstants := f d.pixelConstants }

/-- The shader of a stage. -/
def shader (d : Device) : Stage → Option (Shared Shader)
  | .vertex => d.vertexShader
  | .pixel => d.pixelShader

/-- Carry out a call. -/
def apply (d : Device) : DeviceCall → Device
  | .renderState state value =>
    { d with renderStates := d.renderStates.put (· == 0) state value }
  | .textureStage stage type value =>
    { d with textureStages := d.textureStages.put (· == 0) (stage, type) value }
  | .samplerState sampler type value =>
    { d with samplers := d.samplers.put (· == 0) (sampler, type) value }
  | .texture stage texture => { d with textures := d.textures.set stage texture }
  | .transform state matrix =>
    { d with transforms := d.transforms.put (·.toList.all allZero) state matrix }
  | .light index light => { d with lights := d.lights.put Light.isZero index light }
  | .lightEnable index enabled =>
    { d with lightsEnabled := d.lightsEnabled.put (!·) index enabled }
  | .material material => { d with material }
  | .shader .vertex shader => { d with vertexShader := shader }
  | .shader .pixel shader => { d with pixelShader := shader }
  | .vertexFormat format => { d with vertexFormat := format }
  | .patchMode segments => { d with patchMode := segments }
  | .floats stage start values => d.modifyConstants stage fun bank =>
    { bank with floats := bank.floats.putAll allZero start (fours values) }
  | .ints stage start values => d.modifyConstants stage fun bank =>
    { bank with ints := bank.ints.putAll (·.toList.all (· == 0)) start (fours values) }
  | .bools stage start values => d.modifyConstants stage fun bank =>
    { bank with bools := bank.bools.putAll (!·) start values }

/-- Carry out calls one after the other. -/
def applyAll (d : Device) (calls : List DeviceCall) : Device := calls.foldl apply d

/-- What a device answers when asked for a state: the call that would set the state to the value it
has. -/
def query (d : Device) : StateKey → DeviceCall
  | .renderState state => .renderState state ((d.renderStates.get? state).getD 0)
  | .textureStage stage type =>
    .textureStage stage type ((d.textureStages.get? (stage, type)).getD 0)
  | .samplerState sampler type =>
    .samplerState sampler type ((d.samplers.get? (sampler, type)).getD 0)
  | .texture stage => .texture stage (d.textures.get? stage)
  | .transform state => .transform state ((d.transforms.get? state).getD Matrix4.zero)
  | .light index => .light index ((d.lights.get? index).getD {})
  | .lightEnable index => .lightEnable index ((d.lightsEnabled.get? index).getD false)
  | .material => .material d.material
  | .shader stage => .shader stage (d.shader stage)
  | .vertexFormat => .vertexFormat d.vertexFormat
  | .patchMode => .patchMode d.patchMode
  | .floats stage register =>
    .floats stage register (((d.constants stage).floats.get? register).getD Float4.zero).toList
  | .ints stage register =>
    .ints stage register
      (((d.constants stage).ints.get? register).getD (Vector.replicate 4 0)).toList
  | .bools stage register =>
    .bools stage register [((d.constants stage).bools.get? register).getD false]

end Device

end ShaderEffect
