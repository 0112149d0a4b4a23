import SignalGraph.Error

/-!
Links between spots. A link has no direction of its own; its two ends keep the order in which they
were given.
-/

namespace SignalGraph

structure Link where
  id : LinkId
  a : SpotRef
  b : SpotRef
deriving DecidableEq, Inhabited

namespace Link

def farEnd (l : Link) (spot : SpotRef) : Except GraphError SpotRef :=
  if spot = l.a then .ok l.b
  else if spot = l.b then .ok l.a
  else .error (.notAnEnd spot l.id)

def touchesNode (l : Link) (node : NodeKey) : Bool := l.a.node = node ∨ l.b.node = node

def touches (l : Link) (spot : SpotRef) : Bool := l.a = spot ∨ l.b = spot

end Link
end SignalGraph
