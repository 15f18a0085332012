import ShaderEffect.Tree.Basic
import ShaderEffect.Tree.Path

/-!
# Looking up parameters

Parameters are found by place, by path and by semantic. A look-up that leads nowhere has no answer.
-/

namespace ShaderEffect.Tree

/-- The children of a parameter, or the top-level parameters. -/
def children? (t : Tree) : Option Handle → Option (List Handle)
  | none => some t.top
  | some h => (t.node? h).map (·.members)

/-- The child at a place. -/
def child? (t : Tree) (parent : Option Handle) (i : Nat) : Option Handle := do
  (← t.children? parent)[i]?

/-- The element of an array at a place; other parameters have none. -/
def element? (t : Tree) (h : Handle) (i : Nat) : Option Handle := do
  let p ← t.node? h
  if i < p.decl.elements.toNat then p.members[i]? else none

/-- The first of some parameters with the given name. -/
def named? (t : Tree) (list : List Handle) (name : String) : Option Handle :=
  list.find? fun h => match t.node? h with
    | some p => p.decl.name == some name
    | none => false

/-! ### By path -/

/-- Go one step. -/
def step? (t : Tree) (h : Handle) : PathStep → Option Handle
  | .member name => do t.named? (← t.node? h).members name
  | .index i => t.element? h i

/-- Go steps one after the other. -/
def walk? (t : Tree) : Handle → List PathStep → Option Handle
  | h, [] => some h
  | h, s :: rest => do t.walk? (← t.step? h s) rest

/-- Follow a path that starts in a list of parameters. -/
def follow? (t : Tree) (list : List Handle) (path : Path) : Option Handle := do
  let h ← t.named? list path.name
  match path.annotationName with
  | none => t.walk? h path.steps
  | some name => t.walk? (← t.named? (← t.node? h).annotations name) path.steps

/-- The annotation of a list that a path leads to. -/
def annotationByPath? (t : Tree) (list : List Handle) (path : String) : Option Handle := do
  t.follow? list (← Path.parsePlain? path)

/-- The parameter a path leads to, from the top or from the children of a parameter. Only a path
from the top may name an annotation, and the empty path leads to where it starts. -/
def find? (t : Tree) (base : Option Handle) (path : String) : Option Handle :=
  if path = "" then base
  else match base with
    | none => do t.follow? t.top (← Path.parse? path)
    | some h => do t.follow? (← t.node? h).members (← Path.parsePlain? path)

/-! ### By semantic -/

/-- A letter of the Latin alphabet in lower case. -/
def lowerLatin (c : Char) : Char :=
  if 'A' ≤ c ∧ c ≤ 'Z' then Char.ofNat (c.toNat + 32) else c

/-- Whether two texts differ at most in the case of Latin letters. -/
def sameLetters (a b : String) : Bool := a.toList.map lowerLatin == b.toList.map lowerLatin

/-- The first child with the given semantic, or the first without any. -/
def bySemantic? (t : Tree) (parent : Option Handle) (semantic : Option String) :
    Option Handle := do
  (← t.children? parent).find? fun h => match t.node? h with
    | none => false
    | some p => match p.decl.semantic, semantic with
      | none, none => true
      | some a, some b => sameLetters a b
      | _, _ => false

/-! ### Descriptions -/

/-- What an effect tells about a parameter. -/
structure Description where
  decl : Declaration
  annotations : Nat
  /-- The number of members of a struct, or of each struct in an array. -/
  members : Nat
  flags : UInt32
  bytes : UInt32

/-- The number of members of a struct, or of each struct in an array. -/
def memberCount (t : Tree) (p : Parameter) : Nat :=
  if p.decl.cls ≠ .struct then 0
  else if p.decl.elements = 0 then p.members.length
  else match p.members with
    | [] => 0
    | e :: _ => ((t.node? e).map (·.members.length)).getD 0

/-- Describe a parameter. -/
def describe? (t : Tree) (h : Handle) : Option Description := do
  let p ← t.node? h
  return ⟨p.decl, p.annotations.length, t.memberCount p, p.flags, p.bytes⟩

end ShaderEffect.Tree
