import SignalGraph.Instance
import SignalGraph.Registry
import SignalGraph.Text.Quoted

/-!
Diagnostic dumps: one line with the fields of a thing by name. Texts are quoted and numbers keep a
fraction, so that values of different kinds look different.
-/

namespace SignalGraph

namespace Dump

/-- Named fields in braces. A thing with `more` fields than it shows ends in two dots. -/
def record (name : String) (fields : List (String × String)) (more : Bool) : String :=
  let shown := fields.map (fun (n, v) => n ++ ": " ++ v) ++ (if more then [".."] else [])
  name ++ " \x7b " ++ ", ".intercalate shown ++ " \x7d"

def wrapped (name : String) (value : String) : String := name ++ "(" ++ value ++ ")"

def instanceId (id : InstanceId) : String := wrapped "InstanceId" id.text

def value : Value → String
  | .float x => wrapped "Float" (x.write .dump)
  | .int i => wrapped "Int" i.toInt.repr
  | .bool b => wrapped "Bool" (if b then "true" else "false")
  | .string s => wrapped "String" (Text.dumped s)
  | .object h => wrapped "Object" (wrapped "ObjectHandle" h.toNat.repr)
  | .instanceRef id => wrapped "Instance" (instanceId id)

def bool (b : Bool) : String := if b then "true" else "false"

def state (s : InstanceState) : String :=
  let entries := s.bindings.map fun (name, v) => Text.dumped name ++ ": " ++ value v
  record "InstanceState"
    [("variables", "\x7b" ++ ", ".intercalate entries ++ "\x7d"),
     ("delta_time", s.deltaTime.write .dump),
     ("elapsed", s.elapsed.write .dump),
     ("frame", s.frame.toNat.repr)] false

def graph {β : Type} (g : Graph β) : String :=
  record "Graph"
    [("name", Text.dumped g.name), ("nodes", g.nodeCount.repr), ("links", g.linkCount.repr)] false

def nodeType {β : Type} (t : NodeType β) : String :=
  record "NodeTypeInfo"
    [("key", record "NodeTypeKey"
        [("name", Text.dumped t.key.name), ("category", Text.dumped t.key.category)] false),
     ("description", Text.dumped t.description)] true

def runningInstance {β : Type} (i : Instance β) : String :=
  record "LangInstance"
    [("id", instanceId i.id),
     ("graph", graph i.graph),
     ("state", state i.state),
     ("entry", wrapped "NodeKey" i.entry.index.repr),
     ("started", bool i.started),
     ("cycle_guard", bool i.cycleGuard)] true

def arity : Arity → String
  | .unbounded => "Unbounded"
  | .atMost limit => wrapped "AtMost" limit.toNat.repr

end Dump
end SignalGraph
