import SignalGraph.Link
import SignalGraph.Node

/-!
Graphs and how they are looked at. A graph keeps its nodes and links in two arenas, lists of slots
that only grow: removing a part empties its slot for good. Beside them stand the IDs of the live
nodes, in the order in which the nodes were added. `β` is what gives a node its behavior, together
with the state that the behavior keeps.
-/

namespace SignalGraph

structure Slot (β : Type) where
  node : Node
  behavior : β
deriving DecidableEq

structure Graph (β : Type) where
  name : String
  slots : List (Option (Slot β))
  links : List (Option Link)
  /-- The IDs of the live nodes and where they are, in the order of their addition. -/
  ids : List (String × NodeKey)
deriving DecidableEq

namespace Graph

variable {β : Type}

/-- The handles that a graph has to give out for nodes, and as many for links: handles are numbers of
32 bits, and none is given out twice. -/
def capacity : Nat := 0x100000000

def empty (name : String) : Graph β := ⟨name, [], [], []⟩

def defaultName : String := "Untitled"

def slot? (g : Graph β) (key : NodeKey) : Option (Slot β) := g.slots[key.index]?.join

def node? (g : Graph β) (key : NodeKey) : Option Node := (g.slot? key).map (·.node)

def behavior? (g : Graph β) (key : NodeKey) : Option β := (g.slot? key).map (·.behavior)

def node (g : Graph β) (key : NodeKey) : Except GraphError Node :=
  match g.node? key with
  | some n => .ok n
  | none => .error (.deadNode key)

def behavior (g : Graph β) (key : NodeKey) : Except GraphError β :=
  match g.behavior? key with
  | some b => .ok b
  | none => .error (.deadNode key)

/-- A node's ID, or its handle if it is gone. -/
def label (g : Graph β) (key : NodeKey) : String :=
  match g.node? key with
  | some n => n.id
  | none => key.text

def find? (g : Graph β) (id : String) : Option NodeKey := g.ids.lookup id

def keys (g : Graph β) : List NodeKey := g.ids.map (·.2)

def nodes (g : Graph β) : List Node := g.keys.filterMap g.node?

def keysOfType (g : Graph β) (type : TypeKey) : List NodeKey :=
  (g.nodes.filter (·.type = type)).map (·.key)

def nodeCount (g : Graph β) : Nat := g.ids.length

def spot (g : Graph β) (ref : SpotRef) : Except GraphError Spot := do
  (← g.node ref.node).spotAt ref.index

/-- The handle of the spot with an ID on the node with an ID. -/
def resolve (g : Graph β) (node spot : String) : Except GraphError SpotRef :=
  match g.find? node with
  | none => .error (.noSuchNode node)
  | some key => do
    match (← g.node key).spotIndex? spot with
    | none => .error (.noSuchSpot node spot)
    | some index => .ok ⟨key, index⟩

def link? (g : Graph β) (id : LinkId) : Option Link := g.links[id.index]?.join

def liveLinks (g : Graph β) : List Link := g.links.filterMap id

def linkCount (g : Graph β) : Nat := g.liveLinks.length

def linksOf (g : Graph β) (ref : SpotRef) : Except GraphError (List Link) := do
  return (← g.spot ref).links.filterMap g.link?

end Graph
end SignalGraph
