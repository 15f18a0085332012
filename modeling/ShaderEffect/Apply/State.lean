import ShaderEffect.Apply.Resolve
import ShaderEffect.StateTable

/-!
# Applying states

Each family of state operations makes its own kind of device call. Two families lead on: a shader
brings the constants it wants, among them samplers, and a sampler brings states of its own. The
states of a sampler are applied to the device sampler it was brought for, whatever index they name.

Only states whose inputs changed are applied, unless all are asked for; but shaders and samplers are
always looked into, since what they lead to may have changed.
-/

namespace ShaderEffect

namespace Light

/-- Assign a field of one of several lights. -/
def setFieldOf (lights : Vector Light count) (i : Fin count) (op : UInt32) (words : List UInt32) :
    Vector Light count :=
  lights.set i (lights[i].setField op words)

end Light

namespace Work

/-- Assign a field of a light; there are no lights beyond the last one. -/
def assignLight (w : Work) (index op : UInt32) (words : List UInt32) : Work :=
  if h : index.toNat < Light.count then
    { w with
      lights := Light.setFieldOf w.lights ⟨index.toNat, h⟩ op words
      lightsSet := w.lightsSet.set index.toNat true }
  else w

/-- Assign a field of the material. -/
def assignMaterial (w : Work) (op : UInt32) (words : List UInt32) : Work :=
  { w with material := w.material.setField op words, materialSet := true }

/-- The calls that send the lights that were assigned. -/
def lightCalls (w : Work) : List DeviceCall :=
  (List.finRange Light.count).filterMap fun i =>
    if w.lightsSet[i] then some (.light (UInt32.ofNat i) w.lights[i]) else none

/-- The call that sends the material if it was assigned. -/
def materialCalls (w : Work) : List DeviceCall :=
  if w.materialSet then [.material w.material] else []

end Work

/-- The longest part of a list that makes up whole registers. -/
def wholeRegisters {α : Type} (xs : List α) : List α := xs.take (xs.length / 4 * 4)

/-- The call that uploads the words of a state as constants. -/
def constantCalls (op start : UInt32) (words : List UInt32) : List DeviceCall :=
  let floats := (wholeRegisters words).map fun w => (⟨w⟩ : Single)
  let ints := (wholeRegisters words).map UInt32.toInt32
  let bools := words.map (· != 0)
  match op.toNat with
  | 0 => [.floats .vertex start floats]
  | 1 => [.bools .vertex start bools]
  | 2 => [.ints .vertex start ints]
  | 3 => [.floats .pixel start floats]
  | 4 => [.bools .pixel start bools]
  | 5 => [.ints .pixel start ints]
  | _ => []

/-- The first device sampler of a stage. -/
def Stage.firstSampler : Stage → UInt32
  | .vertex => 257
  | .pixel => 0

/-- Whether states of the family are looked into even if their own value did not change. -/
def StateClass.leadsOn : StateClass → Bool
  | .vertexShader | .pixelShader | .sampler => true
  | _ => false

/-- How the sampler at a handle is applied to a device sampler. -/
abbrev SamplerStep := Mode → UInt32 → Handle → Step Unit

namespace LinkedEffect

variable (e : LinkedEffect)

/-- The texture in the first slot of a parameter. -/
def texture? (m : Memory) (h : Handle) : Option (Shared Texture) :=
  (e.object? m h).bind EffectObject.texture?

/-- The shader in the first slot of a parameter. -/
def shader? (m : Memory) (h : Handle) : Option (Shared Shader) :=
  (e.object? m h).bind EffectObject.shader?

/-- The matrix a parameter holds. -/
def matrix (m : Memory) (h : Handle) : Matrix4 :=
  match e.tree.node? h with
  | some p => p.decl.matrix (e.words m h)
  | none => Matrix4.zero

/-! ### Constants of shaders -/

/-- The call that uploads a parameter as a constant of a shader. -/
def upload (m : Memory) (stage : Stage) (c : Constant) (h : Handle) : List DeviceCall :=
  let start := UInt32.ofNat c.index
  match c.set with
  | .float4 => [.floats stage start (e.floatRegisters m h c)]
  | .int4 => [.ints stage start (e.intRegisters m h c)]
  | .bool => [.bools stage start (e.boolRegisters m h c)]
  | .sampler => []

/-- Apply the samplers a parameter holds to those a constant names, as far as these reach. -/
def applySamplers (nested : SamplerStep) (mode : Mode) (stage : Stage) (c : Constant) (h : Handle) :
    Step Unit :=
  match e.tree.node? h with
  | none => .done ()
  | some p =>
    if p.decl.type.isSampler then
      let first := UInt32.ofNat c.index + stage.firstSampler
      Step.each (fun (s, k) => nested mode (first + UInt32.ofNat k) s)
        ((p.samplers h).take (max c.count 1)).zipIdx
    else .done ()

/-- Bring a shader one of its constants: the parameter of the same name, if there is one. -/
def applyConstant (nested : SamplerStep) (mode : Mode) (stage : Stage) (c : Constant) : Step Unit :=
  if e.skip.contains c.name then .done ()
  else match e.tree.find? none c.name with
  | none => .done ()
  | some h => do
    let m := (← Step.get).memory
    let changed := mode.full || e.isDirty m h mode.since
    if c.set = .sampler then e.applySamplers nested { mode with full := changed } stage c h
    else if changed then Step.emit (e.upload m stage c h)

/-- The calls that upload what a program computed, one for each register it writes. -/
def resultCalls (stage : Stage) (p : Program) (result : Array Single) : List DeviceCall :=
  p.writtenRegisters.filterMap fun r =>
    if r * 4 + 4 ≤ result.size then
      some (.floats stage (UInt32.ofNat r) (result.extract (r * 4) (r * 4 + 4)).toList)
    else none

/-- Upload what the program of a shader computes. -/
def applyProgram (mode : Mode) (stage : Stage) (p : Program) : Step Unit := do
  let m := (← Step.get).memory
  let bound : BoundProgram := ⟨p, Link.bindInputs e.tree p⟩
  if mode.full || e.inputsDirty m bound mode.since then
    Step.emit (resultCalls stage p (e.run m bound))

/-- Bring a shader its constants, then what its program computes. -/
def applyConstants (nested : SamplerStep) (mode : Mode) (s : Shader) : Step Unit := do
  Step.each (e.applyConstant nested mode s.stage) s.constants.constants
  match s.program with
  | some p => e.applyProgram mode s.stage p
  | none => .done ()

/-- Set the shader of a stage if it changed, and bring it its constants. -/
def applyShader (nested : SamplerStep) (mode : Mode) (stage : Stage) (changed : Bool) (h : Handle) :
    Step Unit := do
  let shader := e.shader? (← Step.get).memory h
  if changed then Step.emit [.shader stage shader]
  match shader with
  | some s => e.applyConstants nested { mode with full := changed } s.value
  | none => .done ()

/-! ### States -/

/-- Do what a state with the given operation and value does. The transform that is set is the sum of
the operation and the index, which wraps around at 32 bits, as all sums of words do. -/
def perform (nested : SamplerStep) (mode : Mode) (sampler : Option UInt32) (info : StateInfo)
    (index : UInt32) (value : Resolved) : Step Unit := do
  let m := (← Step.get).memory
  let h := value.param
  let words := e.words m h
  let first := words.headD 0
  let changed := mode.full || value.changed
  match info.cls with
  | .renderState => Step.emit [.renderState info.op first]
  | .textureStage => Step.emit [.textureStage index info.op first]
  | .samplerState => Step.emit [.samplerState (sampler.getD index) info.op first]
  | .texture => Step.emit [.texture (sampler.getD index) (e.texture? m h)]
  | .patchMode => Step.emit [.patchMode ⟨first⟩]
  | .vertexFormat => Step.emit [.vertexFormat first]
  | .transform => Step.emit [.transform (info.op + index) (e.matrix m h)]
  | .material => Step.change (·.assignMaterial info.op words)
  | .light => Step.change (·.assignLight index info.op words)
  | .lightEnable => Step.emit [.lightEnable index (first != 0)]
  | .vertexShader => e.applyShader nested mode .vertex changed h
  | .pixelShader => e.applyShader nested mode .pixel changed h
  | .shaderConstant => Step.emit (constantCalls info.op index words)
  | .sampler => nested mode index h

/-- Apply a state, given how samplers are applied; the states of a sampler are told which. An
unknown operation does nothing. -/
def applyState (nested : SamplerStep) (mode : Mode) (sampler : Option UInt32) (s : StateEntry) :
    Step Unit :=
  match StateTable.info? s.operation with
  | none => .done ()
  | some info => do
    let value ← e.resolve mode s
    if mode.full || value.changed || info.cls.leadsOn then
      e.perform nested mode sampler info s.index value

/-- Apply the states of a sampler to a device sampler. Samplers lead on to samplers at most `depth`
deep. The cut-off, which succeeds and does nothing, stands for a recursion without end: it is met
from `samplerDepth` only if a sampler sets itself, by way of others or not, and such a call would
never return. -/
def applySampler : Nat → SamplerStep
  | 0, _, _, _ => .done ()
  | depth + 1, mode, index, h =>
    match e.tree.node? h with
    | none => .done ()
    | some p => Step.each (e.applyState (applySampler depth) mode (some index)) p.states

/-- The number of different samplers that can lead on to each other. It is enough unless a sampler
sets itself: samplers that lead on to each other one by one are then different nodes. -/
def samplerDepth : Nat := e.tree.nodes.size

/-- Apply a state of a pass. -/
def applyPassState (mode : Mode) (s : StateEntry) : Step Unit :=
  e.applyState (e.applySampler e.samplerDepth) mode none s

end LinkedEffect

end ShaderEffect
