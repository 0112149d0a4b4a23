import SignalGraph.Graph.Basic

/-!
The listing of a graph for people: every node with its spots, and under every spot where its links
lead.
-/

namespace SignalGraph.Graph

variable {β : Type}

/-- How a listing names a spot: the IDs of node and spot, or the handle where there is none. -/
def spotName (g : Graph β) (ref : SpotRef) : String :=
  match g.node? ref.node with
  | none => ref.text
  | some n =>
    match n.spotAt ref.index with
    | .ok s => n.id ++ "." ++ s.id
    | .error _ => ref.text

def linkLine? (g : Graph β) (here : SpotRef) (id : LinkId) : Option String :=
  match g.link? id with
  | none => none
  | some l =>
    match l.farEnd here with
    | .error _ => none
    | .ok there => some ("      -> " ++ g.spotName there ++ " (" ++ id.text ++ ")")

def spotLines (g : Graph β) (here : SpotRef) (s : Spot) : List String :=
  let direction := match s.direction with
    | .input => "in "
    | .output => "out"
  s!"  {direction} {s.id}: {s.category.text} ({s.links.length}/{s.arity.text})" ::
    s.links.filterMap (g.linkLine? here)

def nodeLines (g : Graph β) (n : Node) : List String :=
  s!"{n.id} [{n.type.text}] {n.tag}" ::
    n.spots.zipIdx.flatMap fun (s, index) => g.spotLines ⟨n.key, index⟩ s

def listingLines (g : Graph β) : List String :=
  ("graph \"" ++ g.name ++ "\": " ++ g.nodeCount.repr ++ " nodes, " ++ g.linkCount.repr ++ " links")
    :: g.nodes.flatMap g.nodeLines

def listing (g : Graph β) : String := String.join (g.listingLines.map (· ++ "\n"))

end SignalGraph.Graph
