import ShaderEffect.Device.Call
import ShaderEffect.Error
import ShaderEffect.Memory

/-!
# Steps of applying states

To apply states is to make device calls, in order, and to change what the effect holds: values that
expressions store, and the lights and the material that states assign field by field. A step that
fails keeps the calls and the changes it made before.
-/

namespace ShaderEffect

/-- What applying states works on. -/
structure Work where
  memory : Memory
  lights : Vector Light Light.count
  material : Material
  /-- The lights that were assigned since they were last sent. -/
  lightsSet : Vector Bool Light.count := Vector.replicate _ false
  /-- Whether the material was assigned since it was last sent. -/
  materialSet : Bool := false

/-- What a step comes to: its device calls, what it leaves to work on, and its answer. -/
structure Outcome (α : Type) where
  calls : List DeviceCall
  work : Work
  answer : Except EvaluationError α

/-- A step of applying states. -/
def Step (α : Type) : Type := Work → Outcome α

namespace Step

variable {α β : Type}

/-- Do nothing and answer. -/
def done (a : α) : Step α := fun w => ⟨[], w, .ok a⟩

/-- Go on after a step, unless it fails. -/
def andThen (s : Step α) (next : α → Step β) : Step β := fun w =>
  let first := s w
  match first.answer with
  | .error e => ⟨first.calls, first.work, .error e⟩
  | .ok a =>
    let second := next a first.work
    ⟨first.calls ++ second.calls, second.work, second.answer⟩

instance : Monad Step where
  pure := done
  bind := andThen

/-- Make device calls. -/
def emit (calls : List DeviceCall) : Step Unit := fun w => ⟨calls, w, .ok ()⟩

/-- Look at what there is to work on. -/
def get : Step Work := fun w => ⟨[], w, .ok w⟩

/-- Change what there is to work on. -/
def change (f : Work → Work) : Step Unit := fun w => ⟨[], f w, .ok ()⟩

/-- Answer, or fail. -/
def ofExcept (r : Except EvaluationError α) : Step α := fun w => ⟨[], w, r⟩

/-- Take a step, and go on even if it fails. -/
def attempt (s : Step Unit) : Step Unit := fun w =>
  let first := s w
  ⟨first.calls, first.work, .ok ()⟩

/-- Take a step for each of some values. -/
def each (f : α → Step Unit) : List α → Step Unit
  | [] => done ()
  | a :: rest => andThen (f a) fun _ => each f rest

end Step

end ShaderEffect
