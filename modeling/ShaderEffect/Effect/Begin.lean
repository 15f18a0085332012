import ShaderEffect.Apply.Pass
import ShaderEffect.Effect.Query

/-!
# Beginning, passes and ending

An effect is begun, then its passes are begun and ended one after the other, and at last the effect
is ended. To begin it saves the device states that its technique can set, and to end it sets them
back. While a pass is begun, changed values can be committed: then only the states are applied again
whose inputs were written since the pass was last applied.

The update at which a pass counts as applied is drawn before its states are. So a value that is
written while they are applied is later than the pass, and the next commit does not miss it.
-/

namespace ShaderEffect

/-- What a call to an effect comes to: the device calls it makes, the state it leaves, and its
answer. -/
structure Response (α : Type) where
  calls : List DeviceCall
  state : EffectState
  answer : Except EffectError α

namespace EffectState

/-- The technique in use. -/
def technique (s : EffectState) : Except CallError (Nat × Technique) :=
  match s.effect.technique with
  | none => .error .noTechnique
  | some t =>
    match s.linked.techniques[t]? with
    | none => .error .noTechnique
    | some technique => .ok (t, technique)

/-- The pass that is begun. -/
def active (s : EffectState) : Option Nat :=
  match s.effect.phase with
  | .idle => none
  | .begun _ active => active

/-- The technique in use and the pass that is begun. -/
def activePass (s : EffectState) : Option (Nat × Nat) := do
  return (← s.effect.technique, ← s.active)

/-- Make another pass the one that is begun. -/
def setActive (s : EffectState) (pass : Option Nat) : EffectState :=
  match s.effect.phase with
  | .idle => s
  | .begun saved _ => { s with effect := { s.effect with phase := .begun saved pass } }

/-! ### Taking steps -/

/-- What there is to work on. -/
def work (s : EffectState) : Work where
  memory := s.memory
  lights := s.effect.lights
  material := s.effect.material

/-- Keep what was worked on. -/
def withWork (s : EffectState) (w : Work) : EffectState where
  memory := w.memory
  effect := { s.effect with lights := w.lights, material := w.material }

/-- The update at which a pass was last applied. -/
def appliedAt (s : EffectState) (t p : Nat) : Nat := ((s.effect.applied[t]?.bind (·[p]?))).getD 0

/-- Note the update at which a pass was applied. -/
def setApplied (s : EffectState) (t p stamp : Nat) : EffectState :=
  { s with effect := { s.effect with
      applied := s.effect.applied.modify t fun passes => passes.set p stamp } }

/-- Apply a pass, all of it or what changed since it was last applied. -/
def applyPass (s : EffectState) (t p : Nat) (pass : Pass) (full : Bool) : Response Unit :=
  let since := s.appliedAt t p
  let (stamp, memory) := s.memory.nextVersion s.linked.counter
  let outcome := s.linked.applyPass ⟨full, since⟩ pass { s.work with memory }
  let state := s.withWork outcome.work
  match outcome.answer with
  | .ok () => ⟨outcome.calls, state.setApplied t p stamp, .ok ()⟩
  | .error e => ⟨outcome.calls, state, .error e⟩

/-! ### The calls of an effect -/

/-- Refuse a call. -/
def refuse {α : Type} (s : EffectState) (e : CallError) : Response α := ⟨[], s, .error e⟩

/-- Begin the technique in use and save what it can set, unless the flags say otherwise; the answer
is the number of passes. What was saved before is forgotten. -/
def begin (s : EffectState) (device : Device) (flags : BeginFlags) : Response Nat :=
  match s.technique with
  | .error e => s.refuse e
  | .ok (_, technique) =>
    let passes := technique.passes.length
    if flags.skipAll then
      ⟨[], { s with effect := { s.effect with phase := .begun none none } }, .ok passes⟩
    else
      let outcome := s.linked.recordTechnique technique s.work
      let saved := device.save flags outcome.calls
      let s := s.withWork outcome.work
      ⟨[], { s with effect := { s.effect with phase := .begun (some saved) none } }, .ok passes⟩

/-- The device that receives the calls of passes if the caller passes the given one. -/
def receiver (s : EffectState) (device : Nat) : Nat := s.effect.manager.getD device

/-- Whether the caller's device is also the manager, and so in use already. -/
def isManagerInUse (s : EffectState) (device : Nat) : Bool := s.effect.manager == some device

/-- Find a pass of the technique in use. When a pass is begun, the range of its index is a check of
the call. In a commit it stands for an access out of bounds: the index was in range when the pass
was begun, and lacks a pass now only if the technique was switched inside the pass for one with
fewer passes. Such an access would end the program, so that nothing is left to be said of the
effect; here the commit is refused, and changes nothing. -/
def passInUse (s : EffectState) (pass : Nat) : Except CallError (Nat × Pass) := do
  let (t, technique) ← s.technique
  match technique.passes[pass]? with
  | some p => return (t, p)
  | none => throw .passOutOfRange

/-- Begin a pass: apply all its states. The calls are for the receiver. -/
def beginPass (s : EffectState) (device pass : Nat) : Response Unit :=
  match s.effect.phase with
  | .idle => s.refuse .passOutsideEffect
  | .begun _ (some _) => s.refuse .passActive
  | .begun _ none =>
    match s.passInUse pass with
    | .error e => s.refuse e
    | .ok (t, p) =>
      if s.isManagerInUse device then s.refuse .managerInUse
      else
        let response := s.applyPass t pass p true
        match response.answer with
        | .ok () => { response with state := response.state.setActive (some pass) }
        | .error _ => response

/-- Apply what changed of the pass that is begun. The calls are for the receiver. The index of the
pass is looked up in the technique in use, which may have been switched inside the pass; if it is
out of range there, the refusal stands for the program's end (`passInUse`). -/
def commit (s : EffectState) (device : Nat) : Response Unit :=
  match s.active with
  | none => s.refuse .commitWithoutPass
  | some pass =>
    match s.passInUse pass with
    | .error e => s.refuse e
    | .ok (t, p) =>
      if s.isManagerInUse device then s.refuse .managerInUse else s.applyPass t pass p false

/-- End the pass that is begun. -/
def endPass (s : EffectState) : Except CallError EffectState :=
  match s.active with
  | none => .error .endPassWithoutPass
  | some _ => .ok (s.setActive none)

/-- End the effect and set the saved states back. The calls are for the caller's device. -/
def finish (s : EffectState) : Response Unit :=
  match s.effect.phase with
  | .idle => s.refuse .endWithoutBegin
  | .begun saved _ =>
    ⟨saved.getD [], { s with effect := { s.effect with phase := .idle } }, .ok ()⟩

end EffectState

end ShaderEffect
