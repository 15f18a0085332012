import ShaderEffect.Value.Shape

/-!
# Vectors

A number or a vector is read as four floats, with zeros behind its own components, and written from
the first of four floats. A single integer is exchanged as a packed colour instead.
-/

namespace ShaderEffect

/-- The vector of four floats that some words hold. -/
def Parameter.vector (p : Parameter) (words : List UInt32) : Float4 :=
  let values := (words.take p.decl.columns.toNat).map fun w => (Scalar.ofWord p.decl.type w).toFloat
  Vector.ofFn fun i => (values[i.val]?).getD .zero

/-- Store the first of four floats over words. -/
def Parameter.storeVector (p : Parameter) (v : Float4) : List UInt32 → List UInt32 :=
  overlay ((v.toList.take p.decl.columns.toNat).map fun x => Scalar.toWord p.decl.type (.float x))

namespace EffectState

variable (s : EffectState)

/-- Read a number or a vector. -/
def getVector (h : Handle) : Except CallError Float4 :=
  s.readIf h Parameter.isVector .getVectorShape fun p words =>
    if p.packsVector then Color.unpack (words.headD 0) else p.vector words

/-- Write a number or a vector. -/
def setVector (h : Handle) (v : Float4) : Except CallError EffectState :=
  s.writeIf h Parameter.isVector .setVectorShape fun p =>
    if p.packsVector then overlay [Color.pack v.toList] else p.storeVector v

/-! ### Arrays -/

/-- Read the first elements of an array of vectors over a buffer, if all of them can be read. -/
def readVectorArray (h : Handle) (buffer : List Float4) : InPlace (List Float4) :=
  match s.elements h buffer.length .vector with
  | .error e => ⟨buffer, .error e⟩
  | .ok hs =>
    match hs.mapM s.getVector with
    | .error e => ⟨buffer, .error e⟩
    | .ok values => ⟨overlay values buffer, .ok ()⟩

/-- Write the first elements of an array of vectors, one by one. -/
def writeVectorArray (h : Handle) (values : List Float4) : InPlace EffectState :=
  match s.elements h values.length .vector with
  | .error e => ⟨s, .error e⟩
  | .ok hs => writeEach setVector s (hs.zip values)

/-- Read the first `count` elements of an array of vectors. -/
def getVectorArray (h : Handle) (count : Nat) : Except CallError (List Float4) :=
  (s.readVectorArray h (List.replicate count Float4.zero)).toExcept

/-- Write the first elements of an array of vectors. -/
def setVectorArray (h : Handle) (values : List Float4) : Except CallError EffectState :=
  (s.writeVectorArray h values).toExcept

end EffectState

end ShaderEffect
