/-!
Declared node types. A type is named within a category path such as `UNLang/Math/`; the two together
identify it.
-/

namespace SignalGraph

/-- The name of a node type and the category path it is filed under. -/
structure TypeKey where
  name : String
  category : String
deriving DecidableEq, Inhabited

namespace TypeKey

def text (k : TypeKey) : String := k.category ++ k.name

def root : String := "UNLang/"

def entry : TypeKey := ⟨"Entry", root⟩

def update : TypeKey := ⟨"Update", root⟩

def deltaTime : TypeKey := ⟨"DeltaTime", root ++ "Time/"⟩

def console : TypeKey := ⟨"Console", root ++ "Debug/"⟩

def counter : TypeKey := ⟨"Counter", root ++ "Math/"⟩

def setVariable : TypeKey := ⟨"SetVariable", root ++ "Data/"⟩

end TypeKey
end SignalGraph
