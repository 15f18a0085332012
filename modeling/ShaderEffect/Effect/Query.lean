import ShaderEffect.Effect.Basic

/-!
# Queries

What an effect tells about its parameters, techniques and passes, and the choice of a technique.
-/

namespace ShaderEffect

/-- Whatever can carry annotations. -/
inductive Annotated where
  | parameter (h : Handle)
  | technique (t : Nat)
  | pass (t p : Nat)

/-- What an effect tells about a technique. -/
structure TechniqueDescription where
  name : Option String
  passes : Nat
  annotations : Nat

namespace LinkedEffect

variable (e : LinkedEffect)

/-- The pass at a place. -/
def pass? (t p : Nat) : Option Pass := do (← e.techniques[t]?).passes[p]?

/-- The first technique of the given name. -/
def techniqueByName? (name : String) : Option Nat :=
  e.techniques.findIdx? (·.name == some name)

/-- The first pass of a technique of the given name. -/
def passByName? (t : Nat) (name : String) : Option Nat := do
  (← e.techniques[t]?).passes.findIdx? (·.name == some name)

/-- The annotations of something. -/
def annotations? : Annotated → Option (List Handle)
  | .parameter h => (e.tree.node? h).map (·.annotations)
  | .technique t => e.techniques[t]?.map (·.annotations)
  | .pass t p => (e.pass? t p).map (·.annotations)

/-- The annotation at a place. -/
def annotationAt? (target : Annotated) (i : Nat) : Option Handle := do
  (← e.annotations? target)[i]?

/-- The annotation a path leads to. -/
def annotationByName? (target : Annotated) (path : String) : Option Handle := do
  e.tree.annotationByPath? (← e.annotations? target) path

/-- Describe a technique. -/
def describeTechnique (t : Nat) : Except CallError TechniqueDescription :=
  match e.techniques[t]? with
  | some t => .ok ⟨t.name, t.passes.length, t.annotations.length⟩
  | none => .error .badTechnique

end LinkedEffect

namespace EffectState

/-- Choose a technique. -/
def setTechnique (s : EffectState) (t : Nat) : Except CallError EffectState :=
  if t < s.linked.techniques.length then
    .ok { s with effect := { s.effect with technique := some t } }
  else .error .badTechnique

/-- Choose the device that receives the calls of passes, or the caller's. -/
def setManager (s : EffectState) (manager : Option Nat) : EffectState :=
  { s with effect := { s.effect with manager } }

end EffectState

end ShaderEffect
