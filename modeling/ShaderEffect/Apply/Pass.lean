import ShaderEffect.Apply.State

/-!
# Applying passes

A pass applies its states in order, then sends the lights they assigned, in ascending order, and
then the material. If a state fails, the rest of the pass is left out, and nothing is sent.

To learn which device states a pass can set, all its states are applied with the calls kept from the
device. An array selector then stands for all elements of its array, and a state that fails is left
out by itself.
-/

namespace ShaderEffect

namespace Work

/-- Forget which lights were assigned, and whether the material was. -/
def restart (w : Work) : Work :=
  { w with lightsSet := Vector.replicate _ false, materialSet := false }

end Work

namespace Step

/-- Send the lights and the material that were assigned. -/
def flush : Step Unit := do
  let w ← get
  emit (w.lightCalls ++ w.materialCalls)

end Step

namespace LinkedEffect

variable (e : LinkedEffect)

/-- Apply a pass. -/
def applyPass (mode : Mode) (p : Pass) : Step Unit := do
  Step.change Work.restart
  Step.each (e.applyPassState mode) p.states
  Step.flush

/-- The states that stand for a state when a pass is recorded. -/
def recordedStates (s : StateEntry) : List StateEntry :=
  match s.source with
  | .selector array _ =>
    match e.tree.node? array with
    | some p => p.members.map fun h => { s with source := .parameter h }
    | none => []
  | _ => [s]

/-- Make the calls a pass can make. -/
def recordPass (p : Pass) : Step Unit := do
  Step.change Work.restart
  let states := p.states.flatMap e.recordedStates
  Step.each (fun s => (e.applyPassState ⟨true, 0⟩ s).attempt) states
  Step.flush

/-- Make the calls a technique can make. -/
def recordTechnique (t : Technique) : Step Unit := Step.each e.recordPass t.passes

end LinkedEffect

end ShaderEffect
