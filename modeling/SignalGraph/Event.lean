import SignalGraph.Behavior

/-!
The record of what happens: which calls a graph makes to its nodes' behaviors, and what the
behaviors send and write. Events are recorded when they happen, so a record lists them in order.
-/

namespace SignalGraph

/-- One entry of a record. Calls are recorded before the behavior answers them. -/
inductive Event where
  | setup (node : NodeKey)
  /-- With the number of links on the node, of nodes, and of links. -/
  | loaded (node : NodeKey) (ownLinks nodes links : Nat)
  | save (node : NodeKey)
  | restore (node : NodeKey) (state : List UInt8)
  | begin (node : NodeKey)
  | signal (node : NodeKey) (spot : Nat) (source : SpotRef) (args : List Value)
  | send (source : SpotRef) (args : List Value)
  | log (level : LogLevel) (tag text : String)
  | note (text : String)
deriving DecidableEq

end SignalGraph
