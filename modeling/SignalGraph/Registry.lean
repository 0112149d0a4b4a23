import SignalGraph.Behavior

/-!
Registries of node types: which types there are, and with what behavior a node of a type starts. That may
be another one each time, so new behaviors are numbered by the calls that ask for them.
-/

namespace SignalGraph

structure NodeType (β : Type) where
  key : TypeKey
  description : String
  /-- The behavior of a new node, by the number of the call. -/
  fresh : Nat → β

structure Registry (β : Type) where
  types : List (NodeType β)

namespace Registry

variable {β : Type}

def empty : Registry β := ⟨[]⟩

/-- Puts a type in the place of the one with its key, or behind the others. -/
def insert (type : NodeType β) : List (NodeType β) → List (NodeType β)
  | [] => [type]
  | t :: rest => if t.key = type.key then type :: rest else t :: insert type rest

def register (r : Registry β) (type : NodeType β) : Registry β := ⟨insert type r.types⟩

def get? (r : Registry β) (key : TypeKey) : Option (NodeType β) := r.types.find? (·.key = key)

def under (r : Registry β) (path : String) : List (NodeType β) :=
  r.types.filter fun t => path.toList.isPrefixOf t.key.category.toList

def size (r : Registry β) : Nat := r.types.length

def create (r : Registry β) (key : TypeKey) (call : Nat) : Except GraphError β :=
  match r.get? key with
  | some t => .ok (t.fresh call)
  | none => .error (.unknownType key)

end Registry
end SignalGraph
