import Std.Data.HashSet
import ShaderEffect.Device.State

/-!
# Saving and restoring device states

To begin an effect is to learn which states its technique can set, from the calls it would make, and
to save the values they have. A saved state is the call that sets it back; each state is saved once.
-/

namespace ShaderEffect

/-- Which states are not saved when an effect begins. -/
structure BeginFlags where
  skipAll : Bool := false
  skipShaders : Bool := false
  skipSamplers : Bool := false
deriving DecidableEq

namespace BeginFlags

/-- The flags in the low three bits of a word; other bits mean nothing. -/
def ofBits (bits : UInt32) : BeginFlags where
  skipAll := bits &&& 1 != 0
  skipShaders := bits &&& 2 != 0
  skipSamplers := bits &&& 4 != 0

/-- Whether a state is saved. -/
def saves (flags : BeginFlags) (key : StateKey) : Bool :=
  !flags.skipAll && !(flags.skipShaders && key.isShaderState) &&
    !(flags.skipSamplers && key.isSamplerState)

end BeginFlags

/-- The elements of a list that are not in `seen`, each where it first occurs, after those in
`found`. -/
def firstOccurrences {α : Type} [BEq α] [Hashable α] (seen : Std.HashSet α) (found : List α) :
    List α → List α
  | [] => found.reverse
  | a :: rest =>
    if seen.contains a then firstOccurrences seen found rest
    else firstOccurrences (seen.insert a) (a :: found) rest

/-- The keys of the saved states that some calls set, in the order in which they first occur. -/
def savedKeys (flags : BeginFlags) (calls : List DeviceCall) : List StateKey :=
  firstOccurrences ∅ [] ((calls.flatMap DeviceCall.keys).filter flags.saves)

/-- The saved states of a device: for each the call that sets it back. -/
abbrev Snapshot := List DeviceCall

/-- Save what some calls would change. -/
def Device.save (d : Device) (flags : BeginFlags) (calls : List DeviceCall) : Snapshot :=
  (savedKeys flags calls).map d.query

end ShaderEffect
