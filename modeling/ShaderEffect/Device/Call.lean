import ShaderEffect.Device.Lighting
import ShaderEffect.Object
import ShaderEffect.Table

/-!
# Device calls

An effect drives a device by calls, each of which sets some states. A state has a key; most calls
set one state, and calls that upload constants set one per register.
-/

namespace ShaderEffect

/-- A call that sets states of a device. -/
inductive DeviceCall where
  | renderState (state value : UInt32)
  | textureStage (stage type value : UInt32)
  | samplerState (sampler type value : UInt32)
  | texture (stage : UInt32) (texture : Option (Shared Texture))
  | transform (state : UInt32) (matrix : Matrix4)
  | light (index : UInt32) (light : Light)
  | lightEnable (index : UInt32) (enabled : Bool)
  | material (material : Material)
  | shader (stage : Stage) (shader : Option (Shared Shader))
  | vertexFormat (format : UInt32)
  | patchMode (segments : Single)
  /-- Registers of four floats each; a short tail sets nothing. -/
  | floats (stage : Stage) (start : UInt32) (values : List Single)
  /-- Registers of four integers each; a short tail sets nothing. -/
  | ints (stage : Stage) (start : UInt32) (values : List Int32)
  | bools (stage : Stage) (start : UInt32) (values : List Bool)
deriving DecidableEq

/-- The key of one state of a device. -/
inductive StateKey where
  | renderState (state : UInt32)
  | textureStage (stage type : UInt32)
  | samplerState (sampler type : UInt32)
  | texture (stage : UInt32)
  | transform (state : UInt32)
  | light (index : UInt32)
  | lightEnable (index : UInt32)
  | material
  | shader (stage : Stage)
  | vertexFormat
  | patchMode
  | floats (stage : Stage) (register : UInt32)
  | ints (stage : Stage) (register : UInt32)
  | bools (stage : Stage) (register : UInt32)
deriving DecidableEq, Hashable

namespace StateKey

/-- Whether the state is a shader or one of its constants. -/
def isShaderState : StateKey → Bool
  | .shader _ | .floats .. | .ints .. | .bools .. => true
  | _ => false

/-- Whether the state belongs to a sampler. -/
def isSamplerState : StateKey → Bool
  | .samplerState .. | .texture _ => true
  | _ => false

end StateKey

/-- `count` registers from `start` on. Registers are words, so that their sums wrap around at 32
bits. -/
def registersFrom (start : UInt32) (count : Nat) : List UInt32 :=
  (List.range count).map fun i => start + UInt32.ofNat i

/-- The keys of the states a call sets. -/
def DeviceCall.keys : DeviceCall → List StateKey
  | .renderState state _ => [.renderState state]
  | .textureStage stage type _ => [.textureStage stage type]
  | .samplerState sampler type _ => [.samplerState sampler type]
  | .texture stage _ => [.texture stage]
  | .transform state _ => [.transform state]
  | .light index _ => [.light index]
  | .lightEnable index _ => [.lightEnable index]
  | .material _ => [.material]
  | .shader stage _ => [.shader stage]
  | .vertexFormat _ => [.vertexFormat]
  | .patchMode _ => [.patchMode]
  | .floats stage start values => (registersFrom start (values.length / 4)).map (.floats stage)
  | .ints stage start values => (registersFrom start (values.length / 4)).map (.ints stage)
  | .bools stage start values => (registersFrom start values.length).map (.bools stage)

end ShaderEffect
