import SignalGraph.Error

/-!
Spots, where links meet a node. A spot is declared once, by the node that owns it, and from then on
only its list of links changes.
-/

namespace SignalGraph

structure SpotDecl where
  id : String
  name : String
  direction : Direction
  category : Category
  arity : Arity
deriving DecidableEq, Inhabited

namespace SpotDecl

def input (id : String) (category : Category) : SpotDecl := ⟨id, id, .input, category, .unbounded⟩

def output (id : String) (category : Category) : SpotDecl := ⟨id, id, .output, category, .unbounded⟩

def named (d : SpotDecl) (name : String) : SpotDecl := { d with name }

end SpotDecl

structure Spot extends SpotDecl where
  owner : NodeKey
  links : List LinkId
deriving DecidableEq, Inhabited

namespace Spot

/-- A new spot has no links. -/
def declare (d : SpotDecl) (owner : NodeKey) : Spot := { d with owner, links := [] }

def hasRoom (s : Spot) : Bool := s.arity.admits (s.links.length + 1)

def checkRoom (s : Spot) : Except GraphError Unit :=
  if s.hasRoom then .ok () else .error (.spotFull s.id s.links.length s.arity)

/-- Objects unless a link from `a` to `b` would be legal by direction, category and arity, in this
order. -/
def checkLink (a b : Spot) : Except GraphError Unit :=
  if a.direction = b.direction then .error (.sameDirection a.id b.id a.direction)
  else if a.category.goesWith b.category then do a.checkRoom; b.checkRoom
  else .error (.categoriesDiffer a.id a.category b.id b.category)

def attach (link : LinkId) (s : Spot) : Spot := { s with links := s.links ++ [link] }

/-- Takes a link out and keeps the order of the others. -/
def detach (link : LinkId) (s : Spot) : Spot := { s with links := s.links.erase link }

end Spot
end SignalGraph
