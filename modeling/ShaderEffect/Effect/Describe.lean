import ShaderEffect.Apply.State
import ShaderEffect.Effect.Query

/-!
# Descriptions of passes

A pass is described by its name, the number of its annotations, and the two shaders it would set as
values are now. Of several states that set a shader of one stage the last counts.
-/

namespace ShaderEffect

/-- What an effect tells about a pass. -/
structure PassDescription where
  name : Option String
  annotations : Nat
  vertexShader : Option (Shared Shader)
  pixelShader : Option (Shared Shader)

namespace LinkedEffect

variable (e : LinkedEffect) (m : Memory)

/-- The parameter a shader state takes its shader from, as values are now. -/
def shaderSource? (s : StateEntry) : Option Handle :=
  match s.source with
  | .constant | .expression _ => some s.param
  | .parameter h => some h
  | .selector array p => (e.tree.select array (e.runFirst m p)).toOption

/-- Whether a state is of the given family. -/
def isOfClass (cls : StateClass) (s : StateEntry) : Bool :=
  match StateTable.info? s.operation with
  | some info => info.cls == cls
  | none => false

/-- The shader that the last state of a family takes. -/
def lastShader? (cls : StateClass) (states : List StateEntry) : Option (Shared Shader) := do
  e.shader? m (← e.shaderSource? m (← (states.filter (isOfClass cls)).getLast?))

/-- Describe a pass, with the shaders it would set as values are now. -/
def describePass (t p : Nat) : Except CallError PassDescription :=
  match e.pass? t p with
  | none => .error .badPass
  | some pass => .ok {
      name := pass.name
      annotations := pass.annotations.length
      vertexShader := e.lastShader? m .vertexShader pass.states
      pixelShader := e.lastShader? m .pixelShader pass.states }

end LinkedEffect

end ShaderEffect
