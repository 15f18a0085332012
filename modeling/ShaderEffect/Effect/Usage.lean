import ShaderEffect.Apply.State
import ShaderEffect.Effect.Query

/-!
# Use of parameters

A technique uses a parameter if one of its states reads it or a part of it: as its value, as an
input of its program, as a constant of its shader, or through a sampler. Samplers are followed a few
levels deep.
-/

namespace ShaderEffect.LinkedEffect

variable (e : LinkedEffect) (m : Memory)

/-- Whether a handle leads to a part of the root `top`. -/
def belongsTo (top : Handle) (h : Handle) : Bool :=
  match e.tree.node? h with
  | some p => p.top = top
  | none => false

/-- Whether an input of a program is a part of a root. -/
def inputsRead (top : Handle) (inputs : List (Constant × Option Handle)) : Bool :=
  inputs.any fun (_, h) => match h with
    | some h => e.belongsTo top h
    | none => false

/-- Whether a state names a part of a root: as its value or as an input of its program. -/
def names (top : Handle) : Source → Bool
  | .constant => false
  | .parameter h => e.belongsTo top h
  | .expression p => e.inputsRead top p.inputs
  | .selector array p => e.belongsTo top array || e.inputsRead top p.inputs

/-- The parameters a state can take its value from. -/
def candidates (s : StateEntry) : List Handle :=
  match s.source with
  | .constant | .expression _ => [s.param]
  | .parameter h => [h]
  | .selector array _ => ((e.tree.node? array).map (·.members)).getD []

/-- The states of a sampler. -/
def statesAt (h : Handle) : List StateEntry := ((e.tree.node? h).map (·.states)).getD []

/-- Whether a shader reads a part of a root, given which states do. -/
def shaderReads (top : Handle) (reads : StateEntry → Bool) (s : Shader) : Bool :=
  let constantReads (c : Constant) : Bool :=
    match e.tree.find? none c.name with
    | none => false
    | some h =>
      e.belongsTo top h || c.set == .sampler &&
        match e.tree.node? h with
        | some p => (p.samplers h).any fun s => (e.statesAt s).any reads
        | none => false
  s.constants.constants.any constantReads ||
    match s.program with
    | some p => e.inputsRead top (Link.bindInputs e.tree p)
    | none => false

/-- Whether a state reads a part of a root, looking at most `depth` levels deep. -/
def stateReads (top : Handle) : Nat → StateEntry → Bool
  | 0, _ => false
  | depth + 1, s =>
    e.names top s.source || (e.candidates s).any fun h =>
      (e.statesAt h).any (stateReads top depth) ||
        match e.shader? m h with
        | some shader => e.shaderReads top (stateReads top depth) shader.value
        | none => false

/-- How many levels of samplers are followed. -/
def usageDepth : Nat := 5

/-- Whether a technique uses a parameter. -/
def isUsed (h : Handle) (t : Nat) : Bool :=
  match e.tree.node? h, e.techniques[t]? with
  | some p, some technique => (technique.passes.flatMap (·.states)).any
      (e.stateReads m p.top usageDepth)
  | _, _ => false

end ShaderEffect.LinkedEffect
