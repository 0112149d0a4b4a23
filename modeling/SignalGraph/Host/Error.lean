import SignalGraph.Error
import SignalGraph.Host.Files

/-!
What can go wrong in the host, beside the graphs it runs.
-/

namespace SignalGraph

inductive HostError where
  | file (path : Path) (cause : FileError)
  | settingsParse (cause : Ron.Error)
  /-- A path in the settings is no text, so they cannot be stored. -/
  | settingsWrite
  | unsupportedSettings (found supported : UInt32)
  | run (cause : RunError)
  | logging
deriving DecidableEq

namespace HostError

def message : HostError → String
  | file path cause => path.text ++ ": " ++ cause.message
  | settingsParse cause => "Settings parse error: " ++ cause.detail?.getD "malformed text"
  | settingsWrite => "Settings write error: path contains invalid UTF-8 characters"
  | unsupportedSettings found supported =>
    s!"Settings version {found.toNat} is newer than supported version {supported.toNat}"
  | run cause => cause.message
  | logging => "Logging setup failed"

end HostError
end SignalGraph
