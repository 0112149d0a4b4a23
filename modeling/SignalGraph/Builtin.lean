import SignalGraph.Registry

/-!
The node types that come with the library. Their behaviors are given for any type of behaviors that
includes them, so that a host can use them beside its own.
-/

namespace SignalGraph

structure CounterState where
  count : Int64
  step : Int64
deriving DecidableEq, Inhabited

inductive Builtin where
  /-- Starts the run; remembers the instance that began it. -/
  | entry (begunBy : Option InstanceId)
  | update
  | deltaTime
  | console
  /-- Counts signals and appends the count. -/
  | counter (state : CounterState)
  | setVariable (name : String)
deriving DecidableEq

namespace Builtin

def type : Builtin → TypeKey
  | entry _ => .entry
  | update => .update
  | deltaTime => .deltaTime
  | console => .console
  | counter _ => .counter
  | setVariable _ => .setVariable

def outDecl : SpotDecl := (SpotDecl.output "out" .any).named "Out"

def inDecl : SpotDecl := (SpotDecl.input "in" .any).named "In"

def spots : Builtin → List SpotDecl
  | entry _ | update => [outDecl]
  | _ => [inDecl, outDecl]

def saveCounter (s : CounterState) : List UInt8 := Wire.putInt64 s.count ++ Wire.putInt64 s.step

def takeCounter : Wire.Decoder CounterState := fun bytes => do
  let (count, rest) ← Wire.takeInt64 bytes
  let (step, rest) ← Wire.takeInt64 rest
  return (⟨count, step⟩, rest)

def save : Builtin → List UInt8
  | counter s => saveCounter s
  | setVariable name => Wire.putString name
  | _ => []

/-- Takes on a stored state. Counters and variables ignore bytes behind it; the others take none. -/
def restore (b : Builtin) (bytes : List UInt8) : Except PersistError Unit × Builtin :=
  match b with
  | counter _ =>
    match Wire.decode takeCounter bytes with
    | .ok s => (.ok (), counter s)
    | .error cause => (.error (.codec cause), b)
  | setVariable _ =>
    match Wire.decode Wire.takeString bytes with
    | .ok name => (.ok (), setVariable name)
    | .error cause => (.error (.codec cause), b)
  | _ => (if bytes.isEmpty then .ok () else .error (.unexpectedPayload bytes.length), b)

variable {β : Type}

def setup (wrap : Builtin → β) (b : Builtin) : Setup β := .declareAll b.spots (.ready (wrap b))

/-- An entry passes on its instance, an update the instance and the length of the tick. -/
def onBegin (wrap : Builtin → β) : Builtin → Reaction β
  | entry _ => .look fun v =>
    .become (wrap (.entry (some v.instanceId))) (.forward 0 [.instanceRef v.instanceId])
  | update => .look fun v => .forward 0 [.instanceRef v.instanceId, .float v.state.deltaTime]
  | _ => .finish

def onSignal (wrap : Builtin → β) (b : Builtin) (args : List Value) : Reaction β :=
  match b with
  | entry _ | update => .finish
  | deltaTime => .look fun v => .forward 1 (args ++ [.float v.state.deltaTime])
  | console => .log .info (Value.listText args) (.forward 1 args)
  | counter s =>
    match checkedAdd s.count s.step with
    | none => .fail "counter overflow"
    | some count => .become (wrap (counter { s with count })) (.forward 1 (args ++ [.int count]))
  | setVariable name =>
    if name.isEmpty then .fail "variable name is not set"
    else
      match args.getLast? with
      | none => .fail "signal carries no value to store"
      | some value => .look fun v => .setState (v.state.setVariable name value) (.forward 1 args)

instance : Behavior Builtin where
  setup b _ := setup id b
  save b := .ok b.save
  restore := restore
  onBegin := onBegin id
  onSignal b _ args := onSignal id b args

def registry (wrap : Builtin → β) : Registry β :=
  let entries : List (String × Builtin) :=
    [("Start of execution, signalled once when the instance begins", entry none),
     ("Signalled on every host tick with the tick delta", update),
     ("Appends the current tick delta to the signal", deltaTime),
     ("Writes the signal to the host log, then forwards it", console),
     ("Counts signals and appends the running count", counter ⟨0, 1⟩),
     ("Stores the last signal argument in an instance variable", setVariable "")]
  ⟨entries.map fun (description, b) => ⟨b.type, description, fun _ => wrap b⟩⟩

end Builtin
end SignalGraph
