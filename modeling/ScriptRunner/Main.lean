import ScriptRunner.CommandLine.Program

/-!
# The program on a real machine

The only place with input and output. The host reads and writes real files; the outcome of a run is printed. What needs
sockets, processes or the engine is not started here.
-/

namespace ScriptRunner.CommandLine

/-- The fault that the machine reports as an error. -/
def faultOf (error : IO.Error) : FileFault :=
  match error with
  | .noFileOrDirectory _ _ _ => .notFound
  | .permissionDenied _ _ _ => .permissionDenied
  | .inappropriateType _ 21 _ => .isADirectory
  | .inappropriateType _ 20 _ => .notADirectory
  | e => .other (toString e)

/-- The result of an action, or the fault for which it fails. -/
def attempt {α : Type} (action : IO α) : IO (Except FileFault α) := do
  try
    return .ok (← action)
  catch e =>
    return .error (faultOf e)

/-- The bytes of a stream up to its end. -/
partial def readAll (stream : IO.FS.Stream) (done : ByteArray) : IO ByteArray := do
  let bytes ← stream.read 65536
  if bytes.isEmpty then return done else readAll stream (done ++ bytes)

/-- What stands at a path of the machine. -/
def machineKindOf (path : String) : IO PathKind := do
  let place := System.mkFilePath [path]
  if !(← place.pathExists) then return .absent
  else if ← place.isDir then return .directory
  else return .other

/-- The content of a file of the machine. -/
def machineContent (path : String) : IO (Except FileFault Text.Bytes) := do
  if (← machineKindOf path) = .directory then return .error .isADirectory
  attempt do return (← IO.FS.readBinFile path).toList

/-- A directory of the machine. -/
def machineListing (path : String) : IO (Except FileFault Listing) :=
  attempt do
    (← (System.mkFilePath [path]).readDir).toList.mapM fun entry => do
      if (← machineKindOf entry.path.toString) = .other then
        return (entry.fileName, .file (← machineContent entry.path.toString))
      else return (entry.fileName, .other)

def machine : Host IO where
  environment := do
    let source : SettingsSource :=
      { family := variableFamily, environment := fun _ => none, pathKind := fun _ => .absent }
    let values ← source.variableNames.mapM fun name => do return (name, ← IO.getEnv name)
    return fun name => ((values.find? fun v => v.1 == name).bind Prod.snd).map Text.encodeUtf8
  input := do return (← readAll (← IO.getStdin) .empty).toList
  content := machineContent
  listing := machineListing
  kindOf := machineKindOf
  store path bytes := do
    if (← machineKindOf path) = .directory then return .error .isADirectory
    attempt (IO.FS.writeBinFile path ⟨bytes.toArray⟩)

/-- Prints an outcome. -/
def printOutcome (o : Outcome) : IO UInt32 := do
  IO.print o.output
  IO.eprint o.errors
  return o.exitCode.toUInt32

/-- Ends a run with what cannot be started here. -/
def refuse (what : String) : IO UInt32 :=
  printOutcome (CommandFailure.outcome ⟨s!"{what} needs sockets, processes and an engine", []⟩)

end ScriptRunner.CommandLine

open ScriptRunner.CommandLine in
def main (arguments : List String) : IO UInt32 := do
  match ← start machine arguments with
  | .done o => printOutcome o
  | .stopped => return 101
  | .serve _ _ => refuse "serving"
  | .run _ _ _ => refuse "running a script"
  | .child _ _ _ => refuse "running a task"
