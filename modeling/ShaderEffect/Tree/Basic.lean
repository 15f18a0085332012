import ShaderEffect.Image.Basic
import ShaderEffect.Object
import ShaderEffect.Program.Basic

/-!
# Parameter trees

A linked effect keeps its parameters in one sequence of nodes; a handle is a place in it. Top-level
parameters, annotations and state values are roots. Each root has a block of words and object slots,
and every node under it addresses a contiguous part of both.
-/

namespace ShaderEffect

/-- A place in the sequence of nodes. -/
structure Handle where
  index : Nat
deriving DecidableEq, Inhabited

/-- A contiguous part of a sequence. -/
structure Slice where
  start : Nat
  length : Nat
deriving DecidableEq, Inhabited

namespace Slice

variable {α : Type}

/-- The values in a part. -/
def read (s : Slice) (values : Array α) : List α :=
  (values.extract s.start (s.start + s.length)).toList

/-- Replace values from a place on, one after the other. -/
def overwriteFrom (values : Array α) : Nat → List α → Array α
  | _, [] => values
  | i, v :: rest => overwriteFrom (values.setIfInBounds i v) (i + 1) rest

/-- Replace the first values in a part; values that do not fit in it are left out. -/
def write (s : Slice) (values : Array α) (new : List α) : Array α :=
  overwriteFrom values s.start (new.take s.length)

end Slice

/-- What a root holds. -/
structure Contents where
  words : Array UInt32 := #[]
  objects : Array (Option EffectObject) := #[]
deriving Inhabited

/-- A program whose inputs are bound to parameters. -/
structure BoundProgram where
  program : Program
  inputs : List (Constant × Option Handle)

/-- Where a state takes its value from. -/
inductive Source where
  /-- The state's own value. -/
  | constant
  /-- The value of a parameter. -/
  | parameter (h : Handle)
  /-- What a program computes. -/
  | expression (p : BoundProgram)
  /-- The element of an array that a program chooses. -/
  | selector (array : Handle) (p : BoundProgram)

/-- A state assignment of a linked effect. -/
structure StateEntry where
  operation : UInt32
  index : UInt32
  /-- The root that holds the state's own value. -/
  param : Handle
  source : Source

/-- A node of a parameter tree. -/
structure Parameter where
  /-- The stored value the node was made from. -/
  node : Node
  /-- The elements of an array or the members of a struct. -/
  members : List Handle
  annotations : List Handle
  flags : UInt32
  /-- The size in bytes. -/
  bytes : UInt32
  /-- The number of the root whose block holds the node's values. -/
  root : Nat
  /-- The root the node belongs to. -/
  top : Handle
  words : Slice
  objects : Slice
  /-- The states of a sampler. -/
  states : List StateEntry

namespace Parameter

/-- The declaration of a node. -/
def decl (p : Parameter) : Declaration := p.node.decl

/-- The samplers of a sampler or of an array of samplers: itself, or its elements. -/
def samplers (h : Handle) (p : Parameter) : List Handle :=
  if 0 < p.decl.elements then p.members else [h]

end Parameter

/-- The flag of parameters shared through a pool. -/
def sharedFlag : UInt32 := 1

/-- The flag of annotations. -/
def annotationFlag : UInt32 := 4

/-- All flags that have a meaning. -/
def flagMask : UInt32 := 7

/-- The parameters of an effect. -/
structure Tree where
  nodes : Array Parameter := #[]
  /-- Top-level parameters. -/
  top : List Handle := []
  /-- What each root held when the effect was made. -/
  initial : Array Contents := #[]

namespace Tree

/-- The node at a handle. -/
def node? (t : Tree) (h : Handle) : Option Parameter := t.nodes[h.index]?

/-- Change the node at a handle. -/
def modifyNode (t : Tree) (h : Handle) (f : Parameter → Parameter) : Tree :=
  { t with nodes := t.nodes.modify h.index f }

end Tree

end ShaderEffect
