import SignalGraph.Document.Basic
import SignalGraph.Graph.Edit
import SignalGraph.Registry

/-!
From documents to graphs and back. Loading works in phases: all types are looked up, all nodes are
added, all links are made, every node is told that the graph is complete, and only then do nodes
take on their stored state. The first failure ends it. Both directions also answer the calls that
were made to behaviors.
-/

namespace SignalGraph.Graph

variable {β : Type} [Behavior β]

def addRecords (g : Graph β) :
    List (NodeRecord × β) → Except GraphError (Graph β × List NodeKey) × List Event
  | [] => (.ok (g, []), [])
  | (r, behavior) :: rest =>
    match g.addNode r.id r.tag r.type behavior with
    | (.error cause, _, events) => (.error cause, events)
    | (.ok key, g, events) =>
      match addRecords g rest with
      | (.error cause, later) => (.error cause, events ++ later)
      | (.ok (g, keys), later) => (.ok (g, key :: keys), events ++ later)

omit [Behavior β] in
def linkRecord (g : Graph β) (r : LinkRecord) : Except GraphError (Graph β) := do
  let a ← g.resolve r.a.node r.a.spot
  let b ← g.resolve r.b.node r.b.spot
  match g.link a b with
  | (.ok _, g) => .ok g
  | (.error cause, _) => .error cause

/-- Tells nodes that the graph is complete. Each finds the others as they are by then. -/
def announce (g : Graph β) : List NodeKey → Except GraphError (Graph β) × List Event
  | [] => (.ok g, [])
  | key :: rest =>
    match g.slot? key with
    | none => announce g rest
    | some s =>
      let call := Event.loaded key s.node.linkCount g.nodeCount g.linkCount
      match Behavior.loaded s.behavior g key with
      | .error cause => (.error cause, [call])
      | .ok behavior =>
        let (result, later) := announce (g.setBehavior key behavior) rest
        (result, call :: later)

def restoreStates (g : Graph β) :
    List (NodeRecord × NodeKey) → Except RunError (Graph β) × List Event
  | [] => (.ok g, [])
  | (r, key) :: rest =>
    if r.state.isEmpty then restoreStates g rest
    else
      match g.behavior key with
      | .error cause => (.error (.graph cause), [])
      | .ok behavior =>
        match Behavior.restore behavior r.state with
        | (.error cause, _) => (.error (.persist cause), [.restore key r.state])
        | (.ok (), behavior) =>
          let (result, later) := restoreStates (g.setBehavior key behavior) rest
          (result, .restore key r.state :: later)

def load (d : Document) (types : Registry β) : Except RunError (Graph β) × List Event :=
  match d.checkVersion with
  | .error cause => (.error (.persist cause), [])
  | .ok () =>
    match d.nodes.zipIdx.mapM fun p => types.create p.1.type p.2 with
    | .error cause => (.error (.graph cause), [])
    | .ok behaviors =>
      match (empty d.name).addRecords (d.nodes.zip behaviors) with
      | (.error cause, setups) => (.error (.graph cause), setups)
      | (.ok (g, keys), setups) =>
        match d.links.foldlM linkRecord g with
        | .error cause => (.error (.graph cause), setups)
        | .ok g =>
          match g.announce g.keys with
          | (.error cause, calls) => (.error (.graph cause), setups ++ calls)
          | (.ok g, calls) =>
            let (result, restores) := g.restoreStates (d.nodes.zip keys)
            (result, setups ++ calls ++ restores)

def saveNodes (g : Graph β) : List Node → Except RunError (List NodeRecord) × List Event
  | [] => (.ok [], [])
  | n :: rest =>
    match g.behavior? n.key with
    | none => (.error (.graph (.noSuchNode n.id)), [])
    | some behavior =>
      match Behavior.save behavior with
      | .error cause => (.error (.persist cause), [.save n.key])
      | .ok state =>
        match saveNodes g rest with
        | (.error cause, later) => (.error cause, .save n.key :: later)
        | (.ok records, later) =>
          (.ok (⟨n.id, n.tag, n.type, state⟩ :: records), .save n.key :: later)

omit [Behavior β] in
def address (g : Graph β) (ref : SpotRef) : Except GraphError SpotAddress := do
  let n ← g.node ref.node
  return ⟨n.id, (← n.spotAt ref.index).id⟩

omit [Behavior β] in
def saveLink (g : Graph β) (l : Link) : Except GraphError LinkRecord := do
  return ⟨← g.address l.a, ← g.address l.b⟩

/-- The document of a graph, with the states that its behaviors are in. -/
def snapshot (g : Graph β) : Except RunError Document × List Event :=
  match g.saveNodes g.nodes with
  | (.error cause, calls) => (.error cause, calls)
  | (.ok nodes, calls) =>
    match g.liveLinks.mapM g.saveLink with
    | .error cause => (.error (.graph cause), calls)
    | .ok links => (.ok { Document.empty g.name with nodes, links }, calls)

end SignalGraph.Graph
