import SignalGraph.Graph.Basic
import SignalGraph.Value

/-!
What nodes do. A behavior answers a few calls in the life of its node, and it reaches the graph only
through what those calls offer: while it is set up it may declare spots, and while a signal runs it
may look around, keep state, write messages and signal on. Both kinds of call are therefore given as
finite programs over these steps, which the graph carries out.
-/

namespace SignalGraph

/-- The setting up of a node: declarations of spots, each answered with the spot's index, until the
behavior is ready or refuses. -/
inductive Setup (β : Type) where
  | ready (behavior : β)
  | refuse (cause : GraphError)
  | declare (d : SpotDecl) (next : Except GraphError Nat → Setup β)

namespace Setup

variable {β : Type}

def declareAll : List SpotDecl → Setup β → Setup β
  | [], last => last
  | d :: ds, last => .declare d fun
    | .ok _ => declareAll ds last
    | .error cause => .refuse cause

/-- Carries out the declarations on a node. The node keeps those made before a refusal. -/
def run : Setup β → Node → Except GraphError β × Node
  | ready behavior, n => (.ok behavior, n)
  | refuse cause, n => (.error cause, n)
  | declare d next, n =>
    match n.declare d with
    | .ok (index, n) => (next (.ok index)).run n
    | .error cause => (next (.error cause)).run n

end Setup

structure InstanceState where
  bindings : List (String × Value)
  deltaTime : Binary32
  elapsed : Binary64
  frame : UInt64
deriving DecidableEq

namespace InstanceState

def initial : InstanceState := ⟨[], ⟨0⟩, ⟨0⟩, 0⟩

def valueOf? (s : InstanceState) (name : String) : Option Value := s.bindings.lookup name

/-- Replaces the value of a variable in its place, or adds the variable behind the others. -/
def assign (name : String) (value : Value) : List (String × Value) → List (String × Value)
  | [] => [(name, value)]
  | (n, v) :: rest => if n = name then (n, value) :: rest else (n, v) :: assign name value rest

def setVariable (s : InstanceState) (name : String) (value : Value) : InstanceState :=
  { s with bindings := assign name value s.bindings }

def advance (s : InstanceState) (delta : Binary32) : InstanceState :=
  { s with deltaTime := delta, elapsed := s.elapsed.add delta.widen, frame := s.frame + 1 }

end InstanceState

inductive LogLevel where
  | debug
  | info
  | warn
  | error
deriving DecidableEq

structure View (β : Type) where
  self : NodeKey
  source : Option SpotRef
  instanceId : InstanceId
  graph : Graph β
  state : InstanceState

inductive Reaction (β : Type) where
  | done (result : Except RunError Unit)
  | look (next : View β → Reaction β)
  /-- Replaces the behavior, and so its state. -/
  | become (behavior : β) (next : Reaction β)
  | setState (state : InstanceState) (next : Reaction β)
  | log (level : LogLevel) (text : String) (next : Reaction β)
  | note (text : String) (next : Reaction β)
  /-- Signals one of the node's own spots, and goes on once every linked node has reacted. -/
  | signal (spot : Nat) (args : List Value) (next : Except RunError Unit → Reaction β)

namespace Reaction

variable {β : Type}

def finish : Reaction β := .done (.ok ())

def fail (message : String) : Reaction β :=
  .look fun v => .done (.error (.nodeFailed (v.graph.label v.self) message))

def forward (spot : Nat) (args : List Value) : Reaction β := .signal spot args .done

end Reaction

class Behavior (β : Type) where
  setup : β → Node → Setup β
  /-- Runs once a loaded graph is complete, and may put the behavior's state in order. -/
  loaded : β → Graph β → NodeKey → Except GraphError β := fun b _ _ => .ok b
  save : β → Except PersistError (List UInt8) := fun _ => .ok []
  /-- Takes on a stored state. Also answers the behavior that a refusal leaves. -/
  restore : β → List UInt8 → Except PersistError Unit × β := fun b bytes =>
    (if bytes.isEmpty then .ok () else .error (.unexpectedPayload bytes.length), b)
  onBegin : β → Reaction β := fun _ => .finish
  onSignal : β → (spot : Nat) → List Value → Reaction β

end SignalGraph
