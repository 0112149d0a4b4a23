/-!
Handles to the parts of a graph. A handle is a position in an arena whose slots are never reused, so
the handle of a removed part stays dead.
-/

namespace SignalGraph

structure NodeKey where
  index : Nat
deriving DecidableEq, Inhabited

structure LinkId where
  index : Nat
deriving DecidableEq, Inhabited

/-- A spot, by the node that owns it and its place among that node's spots. -/
structure SpotRef where
  node : NodeKey
  index : Nat
deriving DecidableEq, Inhabited

def NodeKey.text (k : NodeKey) : String := s!"node#{k.index}"

def LinkId.text (l : LinkId) : String := s!"link#{l.index}"

def SpotRef.text (s : SpotRef) : String := s!"{s.node.text}[{s.index}]"

end SignalGraph
