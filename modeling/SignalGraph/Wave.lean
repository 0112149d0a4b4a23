import SignalGraph.Graph.Edit

/-!
Waves: everything that one begin or one signal sets off. A signal leaves a spot along its links, the
oldest first, and each linked node has reacted, with all that its reaction sets off, before the next
link is followed. Since loops may signal on for ever, a wave is given a depth that it may reach; one
that would go deeper is cut off there and has no result, but what it did until then is known.

The cycle guard remembers which link was crossed from which end, and ends a wave that would cross
one again.
-/

namespace SignalGraph

structure Wave (β : Type) where
  graph : Graph β
  state : InstanceState
  instanceId : InstanceId
  /-- The links crossed and the spots they were crossed from, if the cycle guard is on. -/
  crossed : Option (List (LinkId × SpotRef))
  record : Array Event

/-- How far a part of a wave has come: its result, unless it was cut off, and the wave as it is
then. -/
abbrev Progress (β : Type) := Option (Except RunError Unit) × Wave β

abbrev Send (β : Type) := SpotRef → List Value → Wave β → Progress β

namespace Wave

variable {β : Type}

def push (w : Wave β) (e : Event) : Wave β := { w with record := w.record.push e }

def view (w : Wave β) (self : NodeKey) (source : Option SpotRef) : View β :=
  { self, source, instanceId := w.instanceId, graph := w.graph, state := w.state }

def tagOf (w : Wave β) (self : NodeKey) : String :=
  match w.graph.node? self with
  | some n => n.tag
  | none => "?"

/-- Notes that a link is crossed from one end, or ends the wave if it was before. -/
def cross (w : Wave β) (link : LinkId) (source target : SpotRef) : Except RunError (Wave β) :=
  match w.crossed with
  | none => .ok w
  | some crossed =>
    if (link, source) ∈ crossed then .error (.cycle link (w.graph.label target.node))
    else .ok { w with crossed := some ((link, source) :: crossed) }

end Wave

namespace Reaction

variable {β : Type}

def run (send : Send β) (self : NodeKey) (source : Option SpotRef) :
    Reaction β → Wave β → Progress β
  | done result, w => (some result, w)
  | look next, w => (next (w.view self source)).run send self source w
  | become behavior next, w =>
    next.run send self source { w with graph := w.graph.setBehavior self behavior }
  | setState state next, w => next.run send self source { w with state }
  | log level text next, w => next.run send self source (w.push (.log level (w.tagOf self) text))
  | note text next, w => next.run send self source (w.push (.note text))
  | signal spot args next, w =>
    match send ⟨self, spot⟩ args (w.push (.send ⟨self, spot⟩ args)) with
    | (none, w) => (none, w)
    | (some result, w) => (next result).run send self source w

end Reaction

namespace Wave

variable {β : Type}

def deliver [Behavior β] (send : Send β) (source : SpotRef) (args : List Value) (id : LinkId)
    (w : Wave β) : Progress β :=
  match w.graph.link? id with
  | none => (some (.ok ()), w)
  | some l =>
    match l.farEnd source with
    | .error cause => (some (.error (.graph cause)), w)
    | .ok target =>
      match w.cross id source target with
      | .error cause => (some (.error cause), w)
      | .ok w =>
        match w.graph.behavior target.node with
        | .error cause => (some (.error (.graph cause)), w)
        | .ok b =>
          (Behavior.onSignal b target.index args).run send target.node (some source)
            (w.push (.signal target.node target.index source args))

def deliverAll [Behavior β] (send : Send β) (source : SpotRef) (args : List Value) :
    List LinkId → Wave β → Progress β
  | [], w => (some (.ok ()), w)
  | id :: rest, w =>
    match deliver send source args id w with
    | (some (.ok ()), w) => deliverAll send source args rest w
    | stopped => stopped

/-- Sends a signal out of a spot, through at most `depth` nodes one behind the other. -/
def propagate [Behavior β] : (depth : Nat) → Send β
  | 0, _, _, w => (none, w)
  | depth + 1, source, args, w =>
    match w.graph.spot source with
    | .error cause => (some (.error (.graph cause)), w)
    | .ok s => deliverAll (propagate depth) source args s.links w

def begin [Behavior β] (depth : Nat) (key : NodeKey) (w : Wave β) : Progress β :=
  match w.graph.behavior key with
  | .error cause => (some (.error (.graph cause)), w)
  | .ok b => (Behavior.onBegin b).run (propagate depth) key none (w.push (.begin key))

end Wave
end SignalGraph
