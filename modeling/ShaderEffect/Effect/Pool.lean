import ShaderEffect.Effect.Basic

/-!
# Pools

Effects made against one pool share the values of top-level parameters that are flagged as shared:
the first effect that declares a name provides the storage, and later ones adopt it if the shapes
agree throughout. A pool also has the update counter of its effects.
-/

namespace ShaderEffect

/-- The shape of a node. -/
structure NodeShape where
  cls : ParameterClass
  type : ParameterType
  rows : UInt32
  columns : UInt32
  elements : UInt32
deriving DecidableEq

/-- The shape a declaration gives. -/
def Declaration.shape (d : Declaration) : NodeShape :=
  ⟨d.cls, d.type, d.rows, d.columns, d.elements⟩

namespace Node

mutual

/-- The shapes of a value and of all its parts, in tree order. -/
def shapes : Node → List NodeShape
  | .array d elements => d.shape :: shapesOf elements
  | .struct d members => d.shape :: shapesOf members
  | .words d _ | .object d _ | .sampler d _ | .unsupported d => [d.shape]

/-- The shapes of several values. -/
def shapesOf : List Node → List NodeShape
  | [] => []
  | n :: rest => n.shapes ++ shapesOf rest

end

end Node

/-- A parameter of a pool. -/
structure PoolEntry where
  name : String
  shapes : List NodeShape
  block : Nat

/-- A pool. -/
structure Pool where
  counter : Nat
  entries : List PoolEntry := []

namespace Pool

/-- The entry of a name. -/
def find? (p : Pool) (name : String) : Option PoolEntry := p.entries.find? (·.name == name)

/-- Bind a parameter to the entry of its name: adopt the storage of an entry of the same shape, keep
private storage beside an entry of another shape, and provide the storage if there is no entry. -/
def bindParameter (pool : Pool) (roots : Array Nat) (p : Parameter) : Pool × Array Nat :=
  match p.decl.name, roots[p.root]? with
  | some name, some block =>
    match pool.find? name with
    | some entry =>
      if entry.shapes = p.node.shapes then (pool, roots.setIfInBounds p.root entry.block)
      else (pool, roots)
    | none => ({ pool with entries := pool.entries ++ [⟨name, p.node.shapes, block⟩] }, roots)
  | _, _ => (pool, roots)

/-- Bind the shared ones of some parameters, one after the other. -/
def bind (tree : Tree) : List Handle → Pool → Array Nat → Pool × Array Nat
  | [], pool, roots => (pool, roots)
  | h :: rest, pool, roots =>
    let (pool, roots) := match tree.node? h with
      | some p => if p.flags &&& sharedFlag != 0 then pool.bindParameter roots p else (pool, roots)
      | none => (pool, roots)
    bind tree rest pool roots

end Pool

end ShaderEffect
