import SignalGraph.Wave

/-!
Running instances. An instance binds a graph to its one entry node; the host begins it once and then
lets it tick. Every begin, every update node of a tick and every signal from outside is a wave of
its own, for which the cycle guard starts afresh.
-/

namespace SignalGraph

inductive LogSink where
  | collector
  | diagnostics
deriving DecidableEq

structure Instance (β : Type) where
  id : InstanceId
  graph : Graph β
  state : InstanceState
  sink : LogSink
  entry : NodeKey
  /-- Whether it was ever begun, even if that failed. -/
  started : Bool
  cycleGuard : Bool
deriving DecidableEq

/-- What a call to an instance comes to: its result, the instance it leaves, and what happened.
There is no result if the signals went deeper than allowed. -/
abbrev Call (β : Type) := Option (Except RunError Unit) × Instance β × List Event

namespace Instance

variable {β : Type}

/-- Binds a graph to its entry node, of which there must be exactly one. -/
def new (id : InstanceId) (graph : Graph β) (sink : LogSink) : Except GraphError (Instance β) :=
  match graph.keysOfType .entry with
  | [] => .error .noEntry
  | [entry] =>
    .ok { id, graph, state := .initial, sink, entry, started := false, cycleGuard := false }
  | entries => .error (.manyEntries entries.length)

def wave (i : Instance β) : Wave β :=
  { graph := i.graph, state := i.state, instanceId := i.id
    crossed := if i.cycleGuard then some [] else none, record := #[] }

def settle (i : Instance β) (w : Wave β) : Instance β :=
  { i with graph := w.graph, state := w.state }

def conclude (i : Instance β) : Progress β → Call β
  | (result, w) => (result, i.settle w, w.record.toList)

def andThen (c : Call β) (next : Instance β → Call β) : Call β :=
  match c with
  | (some (.ok ()), i, events) =>
    let (result, i, later) := next i
    (result, i, events ++ later)
  | stopped => stopped

/-- A depth that is enough for every wave under the cycle guard: no link is crossed twice from one
end. Without the guard no depth is enough for all graphs. -/
def depth (i : Instance β) : Nat :=
  if i.cycleGuard then 2 * i.graph.links.length + 2 else 0x100000

def begin [Behavior β] (depth : Nat) (i : Instance β) : Call β :=
  if i.started then (some (.error (.graph (.alreadyBegun i.id))), i, [])
  else
    let i := { i with started := true }
    i.conclude (i.wave.begin depth i.entry)

/-- Lets some nodes begin, each with a wave of its own, up to the first failure. -/
def fire [Behavior β] (depth : Nat) : List NodeKey → Instance β → Call β
  | [], i => (some (.ok ()), i, [])
  | key :: rest, i => andThen (i.conclude (i.wave.begin depth key)) (fire depth rest)

def tick [Behavior β] (depth : Nat) (delta : Binary32) (i : Instance β) : Call β :=
  if i.started then
    let i := { i with state := i.state.advance delta }
    i.fire depth (i.graph.keysOfType .update)
  else (some (.error (.graph (.notBegun i.id))), i, [])

def signal [Behavior β] (depth : Nat) (spot : SpotRef) (args : List Value) (i : Instance β) :
    Call β :=
  i.conclude (Wave.propagate depth spot args i.wave)

def ticks [Behavior β] (depth : Nat) (delta : Binary32) : (count : Nat) → Instance β → Call β
  | 0, i => (some (.ok ()), i, [])
  | count + 1, i => andThen (i.tick depth delta) (ticks depth delta count)

end Instance
end SignalGraph
