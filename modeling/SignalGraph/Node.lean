import SignalGraph.Spot

/-!
Nodes and their spots. Spots keep the order of their declaration, and a spot's place in that order
is its index.
-/

namespace SignalGraph

structure Node where
  id : String
  tag : String
  type : TypeKey
  key : NodeKey
  spots : List Spot
deriving DecidableEq, Inhabited

namespace Node

/-- Declares a spot behind the others and answers its index. -/
def declare (n : Node) (d : SpotDecl) : Except GraphError (Nat × Node) :=
  if n.spots.any (·.id = d.id) then .error (.spotIdTaken d.id n.id)
  else .ok (n.spots.length, { n with spots := n.spots ++ [Spot.declare d n.key] })

def spotAt (n : Node) (index : Nat) : Except GraphError Spot :=
  match n.spots[index]? with
  | some s => .ok s
  | none => .error (.spotIndexOutOfRange index n.spots.length)

def spot? (n : Node) (id : String) : Option Spot := n.spots.find? (·.id = id)

def spotIndex? (n : Node) (id : String) : Option Nat := n.spots.findIdx? (·.id = id)

/-- The links on the node, spot after spot. A link between two of its spots is listed at both. -/
def links (n : Node) : List LinkId := n.spots.flatMap (·.links)

def linkCount (n : Node) : Nat := n.links.length

def modifySpot (n : Node) (index : Nat) (f : Spot → Spot) : Node :=
  { n with spots := n.spots.modify index f }

end Node
end SignalGraph
