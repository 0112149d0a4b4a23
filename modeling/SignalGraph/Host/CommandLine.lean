import SignalGraph.Builtin
import SignalGraph.Host.Logging
import SignalGraph.Host.Session
import SignalGraph.Listing

/-!
The command line: run a settings file, list a document, or write settings.
-/

namespace SignalGraph.CommandLine

inductive Command where
  | run (settings : String)
  | inspect (graph : String)
  | initSettings (path : String) (graph : Option String)
deriving DecidableEq

structure Arguments where
  positional : List String
  graph : Option String

def isPlain (s : String) : Bool := s = "-" || s.toList.head? ≠ some '-'

/-- Sorts arguments, where the command may take the option `--graph`. After `--` all arguments stand
for themselves. -/
def sort (takesGraph : Bool) : Arguments → List String → Option Arguments
  | a, [] => some a
  | a, "--" :: rest => some { a with positional := a.positional ++ rest }
  | a, "--graph" :: value :: rest =>
    if takesGraph ∧ a.graph.isNone ∧ isPlain value then
      sort takesGraph { a with graph := some value } rest
    else none
  | a, s :: rest =>
    if isPlain s then sort takesGraph { a with positional := a.positional ++ [s] } rest
    else if takesGraph ∧ a.graph.isNone ∧ "--graph=".toList.isPrefixOf s.toList then
      sort takesGraph { a with graph := some (String.ofList (s.toList.drop 8)) } rest
    else none

def parse (args : List String) : Option Command := do
  let (command, rest) ← match args with
    | [] => none
    | command :: rest => some (command, rest)
  let a ← sort (command = "init-settings") ⟨[], none⟩ rest
  if a.positional.any String.isEmpty ∨ a.graph = some "" then none
  match command, a.positional with
  | "run", [] => some (.run Settings.defaultFile)
  | "run", [settings] => some (.run settings)
  | "inspect", [graph] => some (.inspect graph)
  | "init-settings", [] => some (.initSettings Settings.defaultFile a.graph)
  | "init-settings", [path] => some (.initSettings path a.graph)
  | _, _ => none

structure Exit where
  code : Nat
  stdout : String
  stderr : String
deriving DecidableEq

namespace Exit

def success (stdout : String) : Exit := ⟨0, stdout, ""⟩

def failure (cause : HostError) : Exit := ⟨1, "", "error: " ++ cause.message ++ "\n"⟩

def usage : Exit :=
  ⟨2, "", "usage: unlang run [SETTINGS] | inspect GRAPH | init-settings [PATH] [--graph GRAPH]\n"⟩

end Exit

def variableLines (r : Report) : String :=
  String.join (r.bindings.map fun (name, value) => name ++ " = " ++ value.text ++ "\n")

variable {m : Type → Type} [Monad m] [FileAccess m]

/-- Carries out a command; there is no end if the signals of a run went too deep. -/
def execute (instanceId : InstanceId) (environment : Option String) : Command → m (Option Exit)
  | .run path => do
    match ← Settings.load (Path.ofString path) with
    | .error cause => return some (.failure cause)
    | .ok settings =>
      match Logging.setup environment settings.logFilter with
      | .error cause => return some (.failure cause)
      | .ok () =>
        match (← settings.run instanceId (Builtin.registry id) Instance.depth).1 with
        | none => return none
        | some (.error cause) => return some (.failure cause)
        | some (.ok report) => return some (.success (variableLines report))
  | .inspect path => do
    match Logging.setup environment "warn" with
    | .error cause => return some (.failure cause)
    | .ok () =>
      match ← Document.ofFile (Path.ofString path) with
      | .error cause => return some (.failure cause)
      | .ok d =>
        match (Graph.load d (Builtin.registry id)).1 with
        | .error cause => return some (.failure (.run cause))
        | .ok graph => return some (.success graph.listing)
  | .initSettings path graph => do
    match Logging.setup environment "info" with
    | .error cause => return some (.failure cause)
    | .ok () =>
      let settings := match graph with
        | some g => Settings.forGraph (Path.ofString g)
        | none => Settings.default
      match ← settings.save (Path.ofString path) with
      | .error cause => return some (.failure cause)
      | .ok () => return some (.success "")

end SignalGraph.CommandLine
