import ShaderEffect.Effect.Basic
import ShaderEffect.Layout.Cell

/-!
# Shapes that accessors ask for

An accessor looks at the shape of a parameter before it touches values. One that exchanges several
elements of an array works on them one by one; what it did before an element fails stays done.
-/

namespace ShaderEffect

namespace Parameter

variable (p : Parameter)

/-- A single number. -/
def isScalar : Bool := p.decl.elements == 0 && p.decl.rows == 1 && p.decl.columns == 1

/-- Floats that are exchanged with an integer as a packed colour: a vector of other than two
components, or a matrix of one column and other than two rows. -/
def packsColor : Bool :=
  p.decl.elements == 0 && p.decl.type == .float &&
    (p.decl.cls == .vector && p.decl.columns != 2 ||
      p.decl.cls == .matrixRows && p.decl.rows != 2 && p.decl.columns == 1)

/-- A number or a vector. -/
def isVector : Bool :=
  p.decl.elements == 0 && (p.decl.cls == .scalar || p.decl.cls == .vector)

/-- An integer that is exchanged with a vector as a packed colour. -/
def packsVector : Bool := p.decl.type == .int && p.bytes == 4

/-- A matrix stored by rows. -/
def isMatrix : Bool := p.decl.elements == 0 && p.decl.cls == .matrixRows

/-- Numbers that can be exchanged one by one: anything numeric but matrices stored by columns. -/
def isNumberList : Bool :=
  p.decl.cls == .scalar || p.decl.cls == .vector || p.decl.cls == .matrixRows

/-- Whether the value is all numbers, so that its words are its bytes. -/
def isRaw : Bool := p.objects.length == 0 && p.words.length * 4 == p.bytes.toNat

end Parameter

/-- What a call that works in place leaves, even if it fails, and its answer. -/
structure InPlace (α : Type) where
  left : α
  answer : Except CallError Unit

/-- What a call leaves that works in place and succeeds. -/
def InPlace.toExcept {α : Type} (r : InPlace α) : Except CallError α := r.answer.map fun _ => r.left

namespace EffectState

variable {α : Type} (s : EffectState)

/-- Look at the words of a parameter of an accepted shape. -/
def readIf (h : Handle) (accepts : Parameter → Bool) (error : CallError)
    (read : Parameter → List UInt32 → α) : Except CallError α :=
  match s.node h with
  | .error e => .error e
  | .ok p => if accepts p then .ok (read p (s.words h)) else .error error

/-- Change the words of a parameter of an accepted shape. -/
def writeIf (h : Handle) (accepts : Parameter → Bool) (error : CallError)
    (write : Parameter → List UInt32 → List UInt32) : Except CallError EffectState :=
  match s.node h with
  | .error e => .error e
  | .ok p => if accepts p then .ok (s.writeWords h (write p)) else .error error

/-- The first `count` elements of an array of an accepted class; none of them are always there. -/
def elements (h : Handle) (count : Nat) (cls : ParameterClass) : Except CallError (List Handle) :=
  if count = 0 then .ok []
  else match s.node h with
  | .error e => .error e
  | .ok p =>
    if p.decl.cls = cls ∧ count ≤ p.decl.elements.toNat then .ok (p.members.take count)
    else .error .arrayShape

/-- Write elements one by one, up to the first failure. -/
def writeEach (write : EffectState → Handle → α → Except CallError EffectState) :
    EffectState → List (Handle × α) → InPlace EffectState
  | s, [] => ⟨s, .ok ()⟩
  | s, (h, a) :: rest =>
    match write s h a with
    | .ok s => writeEach write s rest
    | .error e => ⟨s, .error e⟩

/-- Read elements one by one over a buffer, up to the first failure. -/
def readEach (read : Handle → Except CallError α) : List Handle → List α → InPlace (List α)
  | h :: hs, old :: rest =>
    match read h with
    | .ok a => ⟨a :: (readEach read hs rest).left, (readEach read hs rest).answer⟩
    | .error e => ⟨old :: rest, .error e⟩
  | _, buffer => ⟨buffer, .ok ()⟩

end EffectState

end ShaderEffect
