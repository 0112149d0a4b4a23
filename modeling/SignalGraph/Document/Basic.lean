import SignalGraph.Error

/-!
Documents: graphs in a form that can be stored. A document names nodes and spots by their IDs, so it
says nothing of handles, and it keeps each node's state as the bytes that the node's behavior gave.
-/

namespace SignalGraph

structure SpotAddress where
  node : String
  spot : String
deriving DecidableEq, Inhabited

structure NodeRecord where
  id : String
  tag : String
  type : TypeKey
  /-- The state of the behavior; none is stored as no bytes. -/
  state : List UInt8
deriving DecidableEq, Inhabited

structure LinkRecord where
  a : SpotAddress
  b : SpotAddress
deriving DecidableEq, Inhabited

structure Document where
  name : String
  version : UInt32
  nodes : List NodeRecord
  links : List LinkRecord
deriving DecidableEq, Inhabited

namespace Document

/-- The version that is written, and the newest that is read. -/
def currentVersion : UInt32 := 1

def empty (name : String) : Document := ⟨name, currentVersion, [], []⟩

def checkVersion (d : Document) : Except PersistError Unit :=
  if currentVersion < d.version then .error (.unsupportedVersion d.version currentVersion)
  else .ok ()

end Document
end SignalGraph
