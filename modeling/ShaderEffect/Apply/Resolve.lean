import ShaderEffect.Apply.Step
import ShaderEffect.Layout.Register

/-!
# Values of states

A state takes its value from a parameter: its own, one it refers to, or an element that a program
selects. An expression is computed anew into the state's own parameter when one of its inputs
changed.
-/

namespace ShaderEffect

/-- How states are applied: all of them, or those whose inputs were written after an update. -/
structure Mode where
  full : Bool
  since : Nat

/-- The parameter that holds the value of a state, and whether it changed. -/
structure Resolved where
  param : Handle
  changed : Bool

/-- The index that a number selects: its integer part, or the first element for minus one. -/
def selectedIndex? (x : Single) : Option Int :=
  if x = .minusOne then some 0 else x.truncate?

/-- The element of an array that a number selects. -/
def Tree.select (t : Tree) (array : Handle) (x : Single) : Except EvaluationError Handle :=
  match t.node? array with
  | none => .error ⟨x, none, 0⟩
  | some p =>
    let error := ⟨x, p.decl.name, p.decl.elements.toNat⟩
    match selectedIndex? x with
    | none => .error error
    | some i =>
      if 0 ≤ i ∧ i < p.decl.elements.toNat then
        match p.members[i.toNat]? with
        | some h => .ok h
        | none => .error error
      else .error error

namespace LinkedEffect

variable (e : LinkedEffect)

/-- Store what a program computed in the parameter of its state. -/
def storeResult (m : Memory) (h : Handle) (result : Array Single) : Memory :=
  match e.tree.node? h with
  | none => m
  | some p => e.writeWords m h fun words => words.mapIdx fun i _ =>
    Scalar.toWord p.decl.type (.float ((result[i]?).getD .zero))

/-- Find the value of a state. -/
def resolve (mode : Mode) (s : StateEntry) : Step Resolved := fun w =>
  let m := w.memory
  match s.source with
  | .constant => ⟨[], w, .ok ⟨s.param, false⟩⟩
  | .parameter h => ⟨[], w, .ok ⟨h, e.isDirty m h mode.since⟩⟩
  | .expression p =>
    let dirty := e.inputsDirty m p mode.since
    let m := if mode.full || dirty then e.storeResult m s.param (e.run m p) else m
    ⟨[], { w with memory := m }, .ok ⟨s.param, dirty⟩⟩
  | .selector array p =>
    let dirty := e.inputsDirty m p mode.since || e.isDirty m array mode.since
    ⟨[], w, (e.tree.select array (e.runFirst m p)).map (⟨·, dirty⟩)⟩

end LinkedEffect

end ShaderEffect
