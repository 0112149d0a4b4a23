import SignalGraph.Host.CommandLine

/-!
The program: commands are carried out on the files of the system.
-/

namespace SignalGraph

/-- The cause that a failure of the system stands for. Some calls report a code by its negative. -/
def FileError.ofSystem (e : IO.Error) : FileError :=
  match e with
  | .noFileOrDirectory .. => .notFound
  | .inappropriateType _ code _ =>
    if code = 21 ∨ code = 0 - 21 then .isDirectory
    else if code = 20 ∨ code = 0 - 20 then .notDirectory
    else .other (toString e)
  | e => .other (toString e)

instance : FileAccess IO where
  read p := do
    match p.toString? with
    | none => return .error .notText
    | some name =>
      try return .ok (← IO.FS.readBinFile name).data.toList
      catch e => return .error (.ofSystem e)
  write p bytes := do
    match p.toString? with
    | none => return .error .notText
    | some name =>
      try
        IO.FS.writeBinFile name bytes.toByteArray
        return .ok ()
      catch e => return .error (.ofSystem e)

def runProgram (args : List String) : IO CommandLine.Exit := do
  match CommandLine.parse args with
  | none => return .usage
  | some command =>
    let id := InstanceId.ofRandom (← IO.getRandomBytes 16).data.toList
    match ← CommandLine.execute id (← IO.getEnv "RUST_LOG") command with
    | some exit => return exit
    | none => return ⟨134, "", "signals went too deep\n"⟩

end SignalGraph

def main (args : List String) : IO UInt32 := do
  let exit ← SignalGraph.runProgram args
  IO.print exit.stdout
  IO.eprint exit.stderr
  return UInt32.ofNat exit.code
