import SignalGraph.Document.Load
import SignalGraph.Host.Settings
import SignalGraph.Instance

/-!
Host runs: load the graph that the settings name, begin it, let it tick as often as they say, and
store it afterwards if they say so.
-/

namespace SignalGraph

structure Report where
  /-- The ticks after the begin. -/
  frames : UInt64
  elapsed : Binary64
  bindings : List (String × Value)
deriving DecidableEq

def Document.ofFile {m : Type → Type} [Monad m] [FileAccess m] (p : Path) :
    m (Except HostError Document) := do
  match ← FileAccess.readText p with
  | .error cause => return .error (.file p cause)
  | .ok text =>
    match read text with
    | .error cause => return .error (.run (.persist cause))
    | .ok d => return .ok d

structure Session (β : Type) where
  running : Instance β
  ticks : UInt32
  fixedDelta : Binary32

namespace Session

variable {β : Type}

def new (id : InstanceId) (graph : Graph β) (sink : LogSink) (settings : Settings) :
    Except GraphError (Session β) := do
  let i ← Instance.new id graph sink
  return ⟨{ i with cycleGuard := settings.cycleGuard }, settings.ticks, settings.fixedDelta⟩

def ofDocument [Behavior β] (id : InstanceId) (d : Document) (types : Registry β)
    (settings : Settings) : Except RunError (Session β) × List Event :=
  match Graph.load d types with
  | (.error cause, events) => (.error cause, events)
  | (.ok graph, events) =>
    match new id graph .diagnostics settings with
    | .error cause => (.error (.graph cause), events)
    | .ok s => (.ok s, events)

def report (s : Session β) : Report :=
  let state := s.running.state
  ⟨state.frame, state.elapsed, state.bindings⟩

/-- Begins, and then ticks as often as set. There is no result if the signals went too deep. -/
def run [Behavior β] (depth : Nat) (s : Session β) :
    Option (Except RunError Report) × Session β × List Event :=
  let (result, i, events) :=
    Instance.andThen (s.running.begin depth) fun i => i.ticks depth s.fixedDelta s.ticks.toNat
  let s := { s with running := i }
  (result.map fun r => r.map fun () => s.report, s, events)

variable {m : Type → Type} [Monad m] [FileAccess m]

def load [Behavior β] (id : InstanceId) (settings : Settings) (types : Registry β) :
    m (Except HostError (Session β) × List Event) := do
  match ← Document.ofFile settings.graph with
  | .error cause => return (.error cause, [])
  | .ok d =>
    match ofDocument id d types settings with
    | (.error cause, events) => return (.error (.run cause), events)
    | (.ok s, events) => return (.ok s, events)

def store [Behavior β] (s : Session β) (p : Path) : m (Except HostError Unit × List Event) := do
  match s.running.graph.snapshot with
  | (.error cause, events) => return (.error (.run cause), events)
  | (.ok d, events) =>
    match ← FileAccess.write p (Utf8.encode d.write) with
    | .error cause => return (.error (.file p cause), events)
    | .ok () => return (.ok (), events)

end Session

/-- Loads, runs within a depth that may depend on the instance, and stores if the settings name a
place. Answers the report, unless the signals of the run went too deep, and the events of all parts. -/
def Settings.run {β : Type} [Behavior β] {m : Type → Type} [Monad m] [FileAccess m]
    (settings : Settings) (id : InstanceId) (types : Registry β) (depth : Instance β → Nat) :
    m (Option (Except HostError Report) × List Event) := do
  match ← Session.load id settings types with
  | (.error cause, events) => return (some (.error cause), events)
  | (.ok s, events) =>
    match s.run (depth s.running) with
    | (none, _, later) => return (none, events ++ later)
    | (some (.error cause), _, later) => return (some (.error (.run cause)), events ++ later)
    | (some (.ok report), s, later) =>
      match settings.exportPath with
      | none => return (some (.ok report), events ++ later)
      | some p =>
        match ← s.store p with
        | (.error cause, last) => return (some (.error cause), events ++ later ++ last)
        | (.ok (), last) => return (some (.ok report), events ++ later ++ last)

end SignalGraph
