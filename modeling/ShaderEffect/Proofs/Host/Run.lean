import ShaderEffect.Host
import ShaderEffect.Proofs.Writing

/-!
# Runs of a host

Whatever is done with effects is a sequence of operations: some make and drop effects, some are
calls to one effect, and some leave effects alone. An operation that fails changes nothing, except
that a pass which fails keeps the calls it made and the values it stored.
-/

namespace ShaderEffect

/-- A call to an effect. -/
inductive Operation where
  | set (h : Handle) (setter : Setter)
  | reset (h : Handle)
  | beginBlock
  | endBlock
  | applyBlock (i : Nat)
  | deleteBlock (i : Nat)
  | setTechnique (t : Nat)
  | setManager (manager : Option Nat)
  | begin (device : Nat) (flags : BeginFlags)
  | beginPass (device pass : Nat)
  | commit (device : Nat)
  | endPass
  | finish (device : Nat)

/-- The same response without its answer's value. -/
def Response.forget {α : Type} (r : Response α) : Response Unit :=
  ⟨r.calls, r.state, r.answer.map fun _ => ()⟩

namespace EffectState

/-- Keep the state a call leaves, or refuse the call. -/
def orKeep (s : EffectState) : Except CallError EffectState → Response Unit
  | .ok s' => ⟨[], s', .ok ()⟩
  | .error e => s.refuse e

/-- Carry out a call; `devices` are the devices there are. -/
def perform (s : EffectState) (devices : Nat → Device) : Operation → Response Unit
  | .set h setter => s.orKeep (s.set h setter)
  | .reset h => s.orKeep (s.resetValue h)
  | .beginBlock => s.orKeep s.beginBlock
  | .endBlock => s.orKeep (s.endBlock.map (·.2))
  | .applyBlock i => s.orKeep (s.applyBlock i)
  | .deleteBlock i => s.orKeep (s.deleteBlock i)
  | .setTechnique t => s.orKeep (s.setTechnique t)
  | .setManager manager => ⟨[], s.setManager manager, .ok ()⟩
  | .begin device flags => (s.begin (devices device) flags).forget
  | .beginPass device pass => s.beginPass device pass
  | .commit device => s.commit device
  | .endPass => s.orKeep s.endPass
  | .finish _ => s.finish

/-- The device that receives the device calls of a call, if it makes any: those of passes are for
the manager, if there is one. -/
def sendsTo (s : EffectState) : Operation → Option Nat
  | .beginPass device _ | .commit device => some (s.receiver device)
  | .finish device => some device
  | _ => none

/-- The parameters that a call writes: a call that is refused writes none, and what passes store is
not a parameter. -/
def written (s : EffectState) : Operation → List Handle
  | .set h setter => match s.set h setter with
    | .ok _ => s.targets h setter
    | .error _ => []
  | .reset h => [h]
  | .applyBlock i => s.blockTargets i
  | _ => []

end EffectState

/-- An operation on a host. -/
inductive HostOperation where
  | createPool
  | create (image : Image) (skip : List String) (pool : Option Nat)
  | clone (i : Nat)
  | drop (i : Nat)
  /-- Something else takes an identity. -/
  | share
  /-- Somebody else calls a device. -/
  | send (device : Nat) (calls : List DeviceCall)
  | call (i : Nat) (op : Operation)

namespace Host

/-- Carry out an operation. -/
def perform (host : Host) : HostOperation → Host
  | .createPool => host.createPool.2
  | .create image skip pool => match host.create image skip pool with
    | .ok (_, host) => host
    | .error _ => host
  | .clone i => match host.state? i with
    | some s => match host.clone s.effect with
      | .ok (_, host) => host
      | .error _ => host
    | none => host
  | .drop i => host.drop i
  | .share => { host with memory := (host.memory.share ()).2 }
  | .send device calls => host.send device calls
  | .call i op => match host.state? i with
    | some s =>
      let response := s.perform host.device op
      let host := host.setState i response.state
      match s.sendsTo op with
      | some device => host.send device response.calls
      | none => host
    | none => host

/-- Carry out operations one after the other. -/
def run (host : Host) (ops : List HostOperation) : Host := ops.foldl perform host

/-- A host as it can come about. -/
def Reachable (host : Host) : Prop := ∃ ops, host = run {} ops

/-- What an operation writes: the blocks of the parameters that a call to an effect writes. -/
def Written (host : Host) (op : HostOperation) (id : Nat) : Prop :=
  ∃ i op' s, op = .call i op' ∧ host.state? i = some s ∧ s.linked.BlocksOf (s.written op') id

/-- Some operation of a run writes a block. -/
def WrittenBy : Host → List HostOperation → Nat → Prop
  | _, [], _ => False
  | host, op :: rest, id => host.Written op id ∨ WrittenBy (host.perform op) rest id

/-- Every operation of a run is as a condition says, at the host it is carried out on. -/
def Keeps (condition : Host → HostOperation → Prop) : Host → List HostOperation → Prop
  | _, [] => True
  | host, op :: rest => condition host op ∧ Keeps condition (host.perform op) rest

lemma run_cons (host : Host) (op : HostOperation) (rest : List HostOperation) :
    host.run (op :: rest) = (host.perform op).run rest := rfl

lemma run_append (host : Host) (ops rest : List HostOperation) :
    host.run (ops ++ rest) = (host.run ops).run rest :=
  List.foldl_append

lemma Reachable.run {host : Host} (h : host.Reachable) (ops : List HostOperation) :
    (host.run ops).Reachable := by
  obtain ⟨before, rfl⟩ := h
  exact ⟨before ++ ops, (run_append ..).symm⟩

end Host

end ShaderEffect
