import SignalGraph.Document.Basic
import SignalGraph.Ron.Record
import SignalGraph.Ron.Term

/-!
Documents as text. Fields may come in any order and some have defaults: a node without state stores
none, and a document without version is of the current one.
-/

namespace SignalGraph

namespace TypeKey

def term (k : TypeKey) : Ron.Term :=
  .record "NodeTypeKey" [("name", .string k.name), ("category", .string k.category)]

structure Partial where
  name : Option String
  category : Option String

def Partial.finish (p : Partial) : Except Ron.Error TypeKey := do
  let name ← Ron.required "NodeTypeKey" "name" p.name
  let category ← Ron.required "NodeTypeKey" "category" p.category
  return ⟨name, category⟩

def fields : List (Ron.Field Partial) :=
  [Ron.field "name" Ron.text fun s p => { p with name := some s },
   Ron.field "category" Ron.text fun s p => { p with category := some s }]

def reader : Ron.Reader TypeKey := Ron.record "NodeTypeKey" fields ⟨none, none⟩ Partial.finish

end TypeKey

namespace SpotAddress

def term (a : SpotAddress) : Ron.Term :=
  .record "SpotAddress" [("node", .string a.node), ("spot", .string a.spot)]

structure Partial where
  node : Option String
  spot : Option String

def Partial.finish (p : Partial) : Except Ron.Error SpotAddress := do
  let node ← Ron.required "SpotAddress" "node" p.node
  let spot ← Ron.required "SpotAddress" "spot" p.spot
  return ⟨node, spot⟩

def fields : List (Ron.Field Partial) :=
  [Ron.field "node" Ron.text fun s p => { p with node := some s },
   Ron.field "spot" Ron.text fun s p => { p with spot := some s }]

def reader : Ron.Reader SpotAddress := Ron.record "SpotAddress" fields ⟨none, none⟩ Partial.finish

end SpotAddress

namespace LinkRecord

def term (l : LinkRecord) : Ron.Term := .record "LinkRecord" [("a", l.a.term), ("b", l.b.term)]

structure Partial where
  a : Option SpotAddress
  b : Option SpotAddress

def Partial.finish (p : Partial) : Except Ron.Error LinkRecord := do
  let a ← Ron.required "LinkRecord" "a" p.a
  let b ← Ron.required "LinkRecord" "b" p.b
  return ⟨a, b⟩

def fields : List (Ron.Field Partial) :=
  [Ron.field "a" SpotAddress.reader fun s p => { p with a := some s },
   Ron.field "b" SpotAddress.reader fun s p => { p with b := some s }]

def reader : Ron.Reader LinkRecord := Ron.record "LinkRecord" fields ⟨none, none⟩ Partial.finish

end LinkRecord

namespace NodeRecord

/-- The state is left out if there is none. -/
def term (r : NodeRecord) : Ron.Term :=
  let state : List (String × Ron.Term) :=
    if r.state.isEmpty then []
    else [("state", .list (r.state.map fun b => .nat b.toNat))]
  .record "NodeRecord"
    ([("id", .string r.id), ("tag", .string r.tag), ("type_key", r.type.term)] ++ state)

structure Partial where
  id : Option String
  tag : Option String
  type : Option TypeKey
  state : List UInt8

def Partial.finish (p : Partial) : Except Ron.Error NodeRecord := do
  let id ← Ron.required "NodeRecord" "id" p.id
  let tag ← Ron.required "NodeRecord" "tag" p.tag
  let type ← Ron.required "NodeRecord" "type_key" p.type
  return ⟨id, tag, type, p.state⟩

def byte : Ron.Reader UInt8 := fun m s => do
  let (i, s) ← Ron.integer .u8 m s
  return (UInt8.ofNat i.toNat, s)

def fields : List (Ron.Field Partial) :=
  [Ron.field "id" Ron.text fun s p => { p with id := some s },
   Ron.field "tag" Ron.text fun s p => { p with tag := some s },
   Ron.field "type_key" TypeKey.reader fun k p => { p with type := some k },
   Ron.field "state" (Ron.list byte) fun bs p => { p with state := bs }]

def reader : Ron.Reader NodeRecord :=
  Ron.record "NodeRecord" fields ⟨none, none, none, []⟩ Partial.finish

end NodeRecord

def Ron.word : Ron.Reader UInt32 := fun m s => do
  let (i, s) ← Ron.integer .u32 m s
  return (UInt32.ofNat i.toNat, s)

namespace Document

def term (d : Document) : Ron.Term :=
  .record "GraphDocument"
    [("name", .string d.name), ("version", .nat d.version.toNat),
     ("nodes", .list (d.nodes.map (·.term))), ("links", .list (d.links.map (·.term)))]

def write (d : Document) : String := d.term.write

structure Partial where
  name : Option String
  version : UInt32
  nodes : List NodeRecord
  links : List LinkRecord

def Partial.finish (p : Partial) : Except Ron.Error Document := do
  let name ← Ron.required "GraphDocument" "name" p.name
  return ⟨name, p.version, p.nodes, p.links⟩

def fields : List (Ron.Field Partial) :=
  [Ron.field "name" Ron.text fun s p => { p with name := some s },
   Ron.field "version" Ron.word fun n p => { p with version := n },
   Ron.field "nodes" (Ron.list NodeRecord.reader) fun ns p => { p with nodes := ns },
   Ron.field "links" (Ron.list LinkRecord.reader) fun ls p => { p with links := ls }]

def reader : Ron.Reader Document :=
  Ron.record "GraphDocument" fields ⟨none, currentVersion, [], []⟩ Partial.finish

def read (text : String) : Except PersistError Document :=
  match Ron.read reader text with
  | .error cause => .error (.parse cause)
  | .ok d =>
    match d.checkVersion with
    | .error cause => .error cause
    | .ok () => .ok d

end Document
end SignalGraph
