import SignalGraph.Document.Text
import SignalGraph.Host.Error

/-!
Settings of a host run. They are stored as text beside the graphs they name: a relative path in a
settings file is meant as seen from the directory of that file. Every field has a default.
-/

namespace SignalGraph

structure Settings where
  version : UInt32
  graph : Path
  ticks : UInt32
  fixedDelta : Binary32
  logFilter : String
  exportPath : Option Path
  /-- Whether a wave fails that crosses a link twice from one end. -/
  cycleGuard : Bool
deriving DecidableEq

namespace Settings

def currentVersion : UInt32 := 1

def defaultFile : String := "unlang.ron"

/-- No ticks, of a sixtieth of a second each. -/
def default : Settings where
  version := currentVersion
  graph := Path.ofString "graph.ron"
  ticks := 0
  fixedDelta := ⟨0x3C888889⟩
  logFilter := "info"
  exportPath := none
  cycleGuard := false

def forGraph (graph : Path) : Settings := { default with graph }

def path : Ron.Reader Path := fun m s => do
  let (t, s) ← Ron.text m s
  return (Path.ofString t, s)

/-- The fields; each replaces the default. -/
def fields : List (Ron.Field Settings) :=
  [Ron.field "version" Ron.word fun n s => { s with version := n },
   Ron.field "graph" path fun p s => { s with graph := p },
   Ron.field "ticks" Ron.word fun n s => { s with ticks := n },
   Ron.field "fixed_delta" Ron.single fun x s => { s with fixedDelta := x },
   Ron.field "log_filter" Ron.text fun t s => { s with logFilter := t },
   Ron.field "export_path" (Ron.option path) fun p s => { s with exportPath := p },
   Ron.field "cycle_guard" Ron.bool fun b s => { s with cycleGuard := b }]

def reader : Ron.Reader Settings := Ron.record "HostSettings" fields default .ok

def read (text : String) : Except HostError Settings :=
  match Ron.read reader text with
  | .error cause => .error (.settingsParse cause)
  | .ok s =>
    if currentVersion < s.version then .error (.unsupportedSettings s.version currentVersion)
    else .ok s

def write? (s : Settings) : Option String := do
  let graph ← s.graph.toString?
  let exportPath ← match s.exportPath with
    | none => some none
    | some p => p.toString?.map some
  some <| Ron.Term.write <| .record "HostSettings"
    [("version", .nat s.version.toNat),
     ("graph", .string graph),
     ("ticks", .nat s.ticks.toNat),
     ("fixed_delta", .atom (s.fixedDelta.write .stored)),
     ("log_filter", .string s.logFilter),
     ("export_path", .option (exportPath.map .string)),
     ("cycle_guard", .bool s.cycleGuard)]

/-- The settings with their paths as seen from a directory. -/
def resolve (s : Settings) (dir : Path) : Settings :=
  { s with graph := dir.join s.graph, exportPath := s.exportPath.map dir.join }

def ofFile (p : Path) (text : String) : Except HostError Settings := do
  let s ← read text
  return match p.parent? with
    | some dir => s.resolve dir
    | none => s

variable {m : Type → Type} [Monad m] [FileAccess m]

def load (p : Path) : m (Except HostError Settings) := do
  match ← FileAccess.readText p with
  | .error cause => return .error (.file p cause)
  | .ok text => return ofFile p text

/-- Saves settings to a file, which is not touched if they cannot be stored. -/
def save (s : Settings) (p : Path) : m (Except HostError Unit) := do
  match s.write? with
  | none => return .error .settingsWrite
  | some text =>
    match ← FileAccess.write p (Utf8.encode text) with
    | .error cause => return .error (.file p cause)
    | .ok () => return .ok ()

end Settings
end SignalGraph
