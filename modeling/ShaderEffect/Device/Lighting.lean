import ShaderEffect.Number.Single

/-!
# Lights and materials

Lights and materials are set field by field. A field takes as many words as it has components; if
fewer are given, only its first components change.
-/

namespace ShaderEffect

/-- Four components. -/
abbrev Float4 := Vector Single 4

/-- Three components. -/
abbrev Float3 := Vector Single 3

/-- A matrix of four rows. -/
abbrev Matrix4 := Vector Float4 4

namespace Float4

/-- All components zero. -/
def zero : Float4 := Vector.replicate 4 .zero

end Float4

/-- The matrix of zeros. -/
def Matrix4.zero : Matrix4 := Vector.replicate 4 Float4.zero

/-- Replace the first components by the given words. -/
def overwrite {n : Nat} (v : Vector Single n) (words : List UInt32) : Vector Single n :=
  Vector.ofFn fun i => match words[i.val]? with
    | some w => ⟨w⟩
    | none => v[i]

/-- Whether all components equal zero. -/
def allZero {n : Nat} (v : Vector Single n) : Bool := v.toList.all Single.isZero

/-- The first word as a float, zero if there is none. -/
def firstSingle (words : List UInt32) : Single := ⟨words.headD 0⟩

/-- A light. -/
structure Light where
  type : UInt32 := 0
  diffuse : Float4 := Float4.zero
  specular : Float4 := Float4.zero
  ambient : Float4 := Float4.zero
  position : Float3 := Vector.replicate 3 .zero
  direction : Float3 := Vector.replicate 3 .zero
  range : Single := .zero
  falloff : Single := .zero
  attenuation0 : Single := .zero
  attenuation1 : Single := .zero
  attenuation2 : Single := .zero
  theta : Single := .zero
  phi : Single := .zero
deriving DecidableEq

namespace Light

/-- The number of lights an effect assigns fields of. -/
def count : Nat := 8

/-- Set the field that a state operation selects. -/
def setField (l : Light) (op : UInt32) (words : List UInt32) : Light :=
  match op.toNat with
  | 0 => { l with type := words.headD 0 }
  | 1 => { l with diffuse := overwrite l.diffuse words }
  | 2 => { l with specular := overwrite l.specular words }
  | 3 => { l with ambient := overwrite l.ambient words }
  | 4 => { l with position := overwrite l.position words }
  | 5 => { l with direction := overwrite l.direction words }
  | 6 => { l with range := firstSingle words }
  | 7 => { l with falloff := firstSingle words }
  | 8 => { l with attenuation0 := firstSingle words }
  | 9 => { l with attenuation1 := firstSingle words }
  | 10 => { l with attenuation2 := firstSingle words }
  | 11 => { l with theta := firstSingle words }
  | 12 => { l with phi := firstSingle words }
  | _ => l

/-- Whether the light equals the one that was never set. -/
def isZero (l : Light) : Bool :=
  l.type == 0 && allZero l.diffuse && allZero l.specular && allZero l.ambient &&
    allZero l.position && allZero l.direction && l.range.isZero && l.falloff.isZero &&
    l.attenuation0.isZero && l.attenuation1.isZero && l.attenuation2.isZero && l.theta.isZero &&
    l.phi.isZero

end Light

/-- A material. -/
structure Material where
  diffuse : Float4 := Float4.zero
  ambient : Float4 := Float4.zero
  specular : Float4 := Float4.zero
  emissive : Float4 := Float4.zero
  power : Single := .zero
deriving DecidableEq

namespace Material

/-- Set the field that a state operation selects. -/
def setField (m : Material) (op : UInt32) (words : List UInt32) : Material :=
  match op.toNat with
  | 0 => { m with diffuse := overwrite m.diffuse words }
  | 1 => { m with ambient := overwrite m.ambient words }
  | 2 => { m with specular := overwrite m.specular words }
  | 3 => { m with emissive := overwrite m.emissive words }
  | 4 => { m with power := firstSingle words }
  | _ => m

end Material

end ShaderEffect
