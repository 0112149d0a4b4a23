import SignalGraph.Category
import SignalGraph.Handle
import SignalGraph.InstanceId
import SignalGraph.Ron.Error
import SignalGraph.TypeKey
import SignalGraph.Wire.Basic

/-!
What can go wrong with a graph: while it is edited, while it is stored or restored, and while
signals run through it. Each error says its cause; `message` has the wording.
-/

namespace SignalGraph

inductive GraphError where
  | sameDirection (a b : String) (direction : Direction)
  | categoriesDiffer (a : String) (of_a : Category) (b : String) (of_b : Category)
  | spotFull (spot : String) (links : Nat) (arity : Arity)
  | alreadyLinked (a b : String)
  | linksFull
  | invalidArity (raw : Int)
  | nodeIdTaken (id : String)
  | nodesFull
  | spotIdTaken (spot node : String)
  | spotIndexOutOfRange (index count : Nat)
  | notAnEnd (spot : SpotRef) (link : LinkId)
  | deadLink (link : LinkId)
  | alreadyBegun (id : InstanceId)
  | notBegun (id : InstanceId)
  /-- A node's own objection. -/
  | refused (reason : String)
  | unknownType (type : TypeKey)
  | deadNode (node : NodeKey)
  | noSuchNode (id : String)
  | noSuchSpot (node spot : String)
  | noEntry
  | manyEntries (count : Nat)
deriving DecidableEq

namespace GraphError

def message : GraphError → String
  | sameDirection a b direction =>
    s!"Constraint violation: spots '{a}' and '{b}' are both {direction.text}"
  | categoriesDiffer a of_a b of_b =>
    s!"Constraint violation: category {of_a.text} of '{a}' cannot link to category " ++
      s!"{of_b.text} of '{b}'"
  | spotFull spot links arity =>
    s!"Constraint violation: spot '{spot}' already holds {links} links (arity {arity.toRaw})"
  | alreadyLinked a b => s!"Constraint violation: spots '{a}' and '{b}' are already linked"
  | linksFull => "Invalid operation: link arena is full"
  | invalidArity raw => s!"Constraint violation: arity must be -1 or positive, got {raw}"
  | nodeIdTaken id => s!"Duplicate key: node '{id}'"
  | nodesFull => "Invalid operation: node arena is full"
  | spotIdTaken spot node => s!"Duplicate key: spot '{spot}' on node '{node}'"
  | spotIndexOutOfRange index count => s!"Spot index {index} out of range (spot count {count})"
  | notAnEnd spot link =>
    s!"Invalid operation: spot {spot.text} is not an endpoint of {link.text}"
  | deadLink link => s!"Invalid operation: {link.text} is not live"
  | alreadyBegun id => s!"Invalid operation: instance {id.text} already began"
  | notBegun id => s!"Invalid operation: instance {id.text} ticked before begin"
  | refused reason => "Invalid operation: " ++ reason
  | unknownType type => "Unknown node type: " ++ type.text
  | deadNode node => "Node not found: " ++ node.text
  | noSuchNode id => "Node not found: " ++ id
  | noSuchSpot node spot => s!"Spot not found: {node}.{spot}"
  | noEntry => "Graph has no Entry node"
  | manyEntries count => s!"Graph has {count} Entry nodes, expected exactly one"

end GraphError

inductive PersistError where
  | codec (cause : Wire.DecodeError)
  | parse (cause : Ron.Error)
  | unsupportedVersion (found supported : UInt32)
  /-- A node without state was given some. -/
  | unexpectedPayload (length : Nat)
deriving DecidableEq

namespace PersistError

def message : PersistError → String
  | codec cause => "Node state codec error: " ++ cause.message
  | parse cause => "Graph document parse error: " ++ cause.detail?.getD "malformed text"
  | unsupportedVersion found supported =>
    s!"Document version {found.toNat} is newer than supported version {supported.toNat}"
  | unexpectedPayload length => s!"Node has no persisted state but received {length} bytes"

end PersistError

inductive RunError where
  | graph (cause : GraphError)
  | persist (cause : PersistError)
  /-- The cycle guard saw a link crossed a second time from one end, on the way to `node`. -/
  | cycle (link : LinkId) (node : String)
  | nodeFailed (node message : String)
deriving DecidableEq

namespace RunError

def message : RunError → String
  | graph cause => cause.message
  | persist cause => cause.message
  | cycle link node => s!"Cycle detected: {link.text} crossed twice on its way to node {node}"
  | nodeFailed node message => s!"Node {node} failed: {message}"

end RunError

def Arity.ofRaw (raw : Int32) : Except GraphError Arity :=
  if raw.toInt = -1 then .ok .unbounded
  else if 0 < raw.toInt then .ok (.atMost (UInt32.ofNat raw.toInt.toNat))
  else .error (.invalidArity raw.toInt)

end SignalGraph
