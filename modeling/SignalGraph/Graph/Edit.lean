import SignalGraph.Event

/-!
Edits of a graph. Every edit answers with the graph it leaves, also when it fails, so that what a
failed edit changes is a statement about its result. An edit that touches several places does so one
after the other.
-/

namespace SignalGraph.Graph

variable {β : Type}

def modifyNode (g : Graph β) (key : NodeKey) (f : Node → Node) : Graph β :=
  { g with slots := g.slots.modify key.index (Option.map fun s => { s with node := f s.node }) }

def setBehavior (g : Graph β) (key : NodeKey) (behavior : β) : Graph β :=
  { g with slots := g.slots.modify key.index (Option.map fun s => { s with behavior }) }

def modifySpot (g : Graph β) (ref : SpotRef) (f : Spot → Spot) : Except GraphError (Graph β) := do
  let _ ← g.spot ref
  return g.modifyNode ref.node (·.modifySpot ref.index f)

/-- Adds a node behind the others once its behavior has set it up. Also answers the calls made. -/
def addNode [Behavior β] (g : Graph β) (id tag : String) (type : TypeKey) (behavior : β) :
    Except GraphError NodeKey × Graph β × List Event :=
  if g.ids.any (·.1 = id) then (.error (.nodeIdTaken id), g, [])
  else if capacity ≤ g.slots.length then (.error .nodesFull, g, [])
  else
    let key : NodeKey := ⟨g.slots.length⟩
    let fresh : Node := { id, tag, type, key, spots := [] }
    match (Behavior.setup behavior fresh).run fresh with
    | (.error cause, _) => (.error cause, g, [.setup key])
    | (.ok behavior, node) =>
      let g := { g with slots := g.slots ++ [some { node, behavior }], ids := g.ids ++ [(id, key)] }
      (.ok key, g, [.setup key])

def checkLink (g : Graph β) (a b : SpotRef) : Except GraphError Unit := do
  let first ← g.spot a
  let second ← g.spot b
  first.checkLink second
  if (← g.linksOf a).any (·.touches b) then .error (.alreadyLinked first.id second.id)
  else if capacity ≤ g.links.length then .error .linksFull
  else .ok ()

/-- Links two spots: first the link itself, then its entry at `a`, then the one at `b`. -/
def link (g : Graph β) (a b : SpotRef) : Except GraphError LinkId × Graph β :=
  match g.checkLink a b with
  | .error cause => (.error cause, g)
  | .ok () =>
    let id : LinkId := ⟨g.links.length⟩
    let g := { g with links := g.links ++ [some (Link.mk id a b)] }
    match g.modifySpot a (·.attach id) with
    | .error cause => (.error cause, g)
    | .ok g =>
      match g.modifySpot b (·.attach id) with
      | .error cause => (.error cause, g)
      | .ok g => (.ok id, g)

def detach (g : Graph β) (ref : SpotRef) (id : LinkId) : Graph β :=
  match g.modifySpot ref (·.detach id) with
  | .ok g => g
  | .error _ => g

def disposeLink (g : Graph β) (id : LinkId) : Except GraphError Link × Graph β :=
  match g.link? id with
  | none => (.error (.deadLink id), g)
  | some l =>
    let g := { g with links := g.links.set id.index none }
    (.ok l, (g.detach l.a id).detach l.b id)

def disposeLive (g : Graph β) : List LinkId → Except GraphError Unit × Graph β
  | [] => (.ok (), g)
  | id :: rest =>
    match g.link? id with
    | none => g.disposeLive rest
    | some _ =>
      match g.disposeLink id with
      | (.ok _, g) => g.disposeLive rest
      | (.error cause, g) => (.error cause, g)

/-- Removes a node after disposing all links on it, and answers the node as it then is. A link
between two of its spots is listed at both. -/
def removeNode (g : Graph β) (key : NodeKey) : Except GraphError Node × Graph β :=
  match g.node key with
  | .error cause => (.error cause, g)
  | .ok n =>
    match g.disposeLive n.links with
    | (.error cause, g) => (.error cause, g)
    | (.ok (), g) =>
      match g.node key with
      | .error cause => (.error cause, g)
      | .ok n =>
        (.ok n, { g with slots := g.slots.set key.index none, ids := g.ids.filter (·.1 ≠ n.id) })

end SignalGraph.Graph
