import ShaderEffect.Proofs.Plan.Basic

/-!
# The plan of a pass

The plan of a pass follows the pass as it is applied, state by state, but looks at one memory
throughout: an expression counts with the words it would store.
-/

namespace ShaderEffect

/-- Whether a state takes its value from an element of an array that a program chooses. -/
def StateEntry.isSelected (s : StateEntry) : Bool :=
  match s.source with
  | .selector .. => true
  | _ => false

/-- The value of a state: the parameter that holds it, its words, and the parameters whose change
makes the state due. -/
structure StateValue where
  param : Handle
  words : List UInt32
  inputs : List Handle

/-- The plan of the sampler at a handle, applied to a device sampler. -/
abbrev SamplerPlan := UInt32 → Handle → Plan

namespace LinkedEffect

variable (e : LinkedEffect) (m : Memory)

/-- The words of a parameter with what a program computes stored over them. -/
def resultWords (h : Handle) (result : Array Single) (words : List UInt32) : List UInt32 :=
  match e.tree.node? h with
  | some p => words.mapIdx fun i _ =>
      Scalar.toWord p.decl.type (.float ((result[i]?).getD .zero))
  | none => words

/-- The value of a state. -/
def stateValue (s : StateEntry) : Except EvaluationError StateValue :=
  match s.source with
  | .constant => .ok ⟨s.param, e.words m s.param, []⟩
  | .parameter h => .ok ⟨h, e.words m h, [h]⟩
  | .expression p =>
    .ok ⟨s.param, e.resultWords s.param (e.run m p) (e.words m s.param), p.handles⟩
  | .selector array p =>
    (e.tree.select array (e.runFirst m p)).map fun h => ⟨h, e.words m h, p.handles ++ [array]⟩

/-- How a state comes to its value. -/
inductive Takes (s : StateEntry) : StateValue → Prop
  | constant : s.source = .constant → Takes s ⟨s.param, e.words m s.param, []⟩
  | parameter {h : Handle} : s.source = .parameter h → Takes s ⟨h, e.words m h, [h]⟩
  | expression {p : BoundProgram} : s.source = .expression p → Takes s
      ⟨s.param, e.resultWords s.param (e.run m p) (e.words m s.param), p.handles⟩
  | selector {array h : Handle} {p : BoundProgram} : s.source = .selector array p →
      e.tree.select array (e.runFirst m p) = .ok h →
      Takes s ⟨h, e.words m h, p.handles ++ [array]⟩

variable {e m} in
lemma takes_of_stateValue {s : StateEntry} {v : StateValue} (hv : e.stateValue m s = .ok v) :
    e.Takes m s v := by
  rw [stateValue] at hv
  cases hsource : s.source with
  | constant =>
    simp only [hsource, Except.ok.injEq] at hv
    exact hv ▸ .constant hsource
  | parameter h =>
    simp only [hsource, Except.ok.injEq] at hv
    exact hv ▸ .parameter hsource
  | expression p =>
    simp only [hsource, Except.ok.injEq] at hv
    exact hv ▸ .expression hsource
  | selector array p =>
    simp only [hsource] at hv
    cases hselect : e.tree.select array (e.runFirst m p) with
    | error error =>
      rw [hselect] at hv
      cases hv
    | ok h =>
      rw [hselect] at hv
      cases hv
      exact .selector hsource hselect

/-! ### Shaders -/

/-- The plan of the samplers a parameter holds, as far as a constant names them. -/
def samplersPlan (nested : SamplerPlan) (stage : Stage) (c : Constant) (h : Handle) : Plan :=
  match e.tree.node? h with
  | none => []
  | some p =>
    if p.decl.type.isSampler then
      ((p.samplers h).take (max c.count 1)).zipIdx.flatMap fun (s, k) =>
        nested (UInt32.ofNat c.index + stage.firstSampler + UInt32.ofNat k) s
    else []

/-- The plan of a constant of a shader. -/
def constantPlan (nested : SamplerPlan) (stage : Stage) (c : Constant) : Plan :=
  if e.skip.contains c.name then []
  else match e.tree.find? none c.name with
  | none => []
  | some h =>
    if c.set = .sampler then (e.samplersPlan nested stage c h).map (.under [h])
    else .ofActions [h] ((e.upload m stage c h).map .call)

/-- The program of a shader with its inputs bound. -/
def boundProgram (p : Program) : BoundProgram := ⟨p, Link.bindInputs e.tree p⟩

/-- The plan of the program of a shader. -/
def programPlan (stage : Stage) (p : Program) : Plan :=
  .ofActions (e.boundProgram p).handles
    ((resultCalls stage p (e.run m (e.boundProgram p))).map .call)

/-- The plan of what a shader brings. -/
def constantsPlan (nested : SamplerPlan) (s : Shader) : Plan :=
  s.constants.constants.flatMap (e.constantPlan m nested s.stage) ++
    match s.program with
    | some p => e.programPlan m s.stage p
    | none => []

/-- The plan of setting the shader of a stage. -/
def shaderPlan (nested : SamplerPlan) (stage : Stage) (h : Handle) : Plan :=
  .act [] (.call (.shader stage (e.shader? m h))) ::
    match e.shader? m h with
    | some s => e.constantsPlan m nested s.value
    | none => []

/-! ### States -/

/-- The matrix that words of a parameter hold. -/
def matrixOf (h : Handle) (words : List UInt32) : Matrix4 :=
  match e.tree.node? h with
  | some p => p.decl.matrix words
  | none => Matrix4.zero

/-- What a state does that does not lead on. -/
def plainActions (sampler : Option UInt32) (info : StateInfo) (index : UInt32) (v : StateValue) :
    List Action :=
  let first := v.words.headD 0
  match info.cls with
  | .renderState => [.call (.renderState info.op first)]
  | .textureStage => [.call (.textureStage index info.op first)]
  | .samplerState => [.call (.samplerState (sampler.getD index) info.op first)]
  | .texture => [.call (.texture (sampler.getD index) (e.texture? m v.param))]
  | .patchMode => [.call (.patchMode ⟨first⟩)]
  | .vertexFormat => [.call (.vertexFormat first)]
  | .transform => [.call (.transform (info.op + index) (e.matrixOf v.param v.words))]
  | .material => [.material info.op v.words]
  | .light => [.light index info.op v.words]
  | .lightEnable => [.call (.lightEnable index (first != 0))]
  | .shaderConstant => (constantCalls info.op index v.words).map .call
  | .vertexShader | .pixelShader | .sampler => []

/-- The plan of a state with the given operation and value. The states of a sampler are due on
their own, whatever made the sampler the one to apply. -/
def valuePlan (nested : SamplerPlan) (sampler : Option UInt32) (info : StateInfo) (index : UInt32)
    (v : StateValue) : Plan :=
  match info.cls with
  | .vertexShader => (e.shaderPlan m nested .vertex v.param).map (.under v.inputs)
  | .pixelShader => (e.shaderPlan m nested .pixel v.param).map (.under v.inputs)
  | .sampler => nested index v.param
  | _ => .ofActions v.inputs (e.plainActions m sampler info index v)

/-- The plan of a state. -/
def statePlan (nested : SamplerPlan) (sampler : Option UInt32) (s : StateEntry) : Plan :=
  match StateTable.info? s.operation with
  | none => []
  | some info =>
    match e.stateValue m s with
    | .error error => [.fail error]
    | .ok v => e.valuePlan m nested sampler info s.index v

/-- The plan of a sampler. -/
def samplerPlan : Nat → SamplerPlan
  | 0, _, _ => []
  | depth + 1, index, h =>
    match e.tree.node? h with
    | none => []
    | some p => p.states.flatMap (e.statePlan m (samplerPlan depth) (some index))

/-- The plan of a state of a pass. -/
def passStatePlan (s : StateEntry) : Plan :=
  e.statePlan m (e.samplerPlan m e.samplerDepth) none s

/-- The plan of a pass. -/
def passPlan (p : Pass) : Plan := p.states.flatMap (e.passStatePlan m)

end LinkedEffect

end ShaderEffect
