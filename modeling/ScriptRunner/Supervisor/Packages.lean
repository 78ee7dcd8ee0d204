import ScriptRunner.Channel.Failure
import ScriptRunner.Files
import ScriptRunner.Text.Blank

/-!
# Packages

A package is a program in a directory of its own that serves a task. It is started with the number and the port of the
task and names the port that it listens on by a line `#<port>`. A package that has answered once is not started again.
-/

namespace ScriptRunner

/-- The port that a line names. -/
def parseHandshake? (line : String) : Option Port :=
  match Text.strip Text.isBlank line.toList with
  | '#' :: r => ((IntRange.uint16.parse 10 (Text.strip Text.isBlank r)).toOption).map fun n => UInt16.ofNat n.toNat
  | _ => none

/-- What a program did in the time it had. -/
structure PackageOutput where
  /-- The lines it printed. -/
  lines : List String
  /-- What it complained of. -/
  complaint : String
  /-- It has closed its output. -/
  ended : Bool
  deriving DecidableEq, Repr, Inhabited

/-- A program to be started, with its arguments. -/
structure Spawn where
  program : String
  arguments : List String
  deriving DecidableEq, Repr, Inhabited

/-- The packages that have answered, with their ports. -/
structure PackageManager where
  dir : String
  ports : List (String × Port)
  deriving DecidableEq, Repr, Inhabited

namespace PackageManager

def ofDir (dir : String) : PackageManager := ⟨dir, []⟩

/-- The port of a package that has answered. -/
def portOf? (m : PackageManager) (name : String) : Option Port :=
  (m.ports.find? fun p => p.1 == name).map Prod.snd

/-- The name stands for a program right in the directory. -/
def isValidName (name : String) : Bool :=
  !(name.isEmpty || name.contains '/' || name.contains '\\' || name.startsWith ".")

/-- How a request to start a package goes on. -/
inductive Plan where
  | running (port : Port)
  | refused (error : ChannelError)
  | spawn (program : Spawn)
  deriving DecidableEq, Repr

def plan (m : PackageManager) (name : String) (task : TaskId) (localPort : Port) : Plan :=
  match m.portOf? name with
  | some port => .running port
  | none =>
    if isValidName name then
      .spawn ⟨joinPath m.dir name, [s!"-t={task.toNat}", s!"-p={localPort.toNat}"]⟩
    else .refused (.handshake s!"invalid package name '{name}'")

/-- The answer of a program that was started, or why it could not be started. -/
def handshake (program : Spawn) (output : Except FileFault PackageOutput) : Except ChannelError Port :=
  match output with
  | .error fault => .error (.handshake s!"failed to start {program.program}: {fault.message}")
  | .ok output =>
    match output.lines.findSome? parseHandshake? with
    | some port => .ok port
    | none =>
      let complaint := Text.trim output.complaint
      if complaint.isEmpty then .error (if output.ended then .handshake "no answer" else .timeout)
      else .error (.handshake complaint)

/-- Remembers the port of a package. -/
def remember (m : PackageManager) (name : String) (port : Port) : PackageManager :=
  { m with ports := m.ports.filter (fun p => p.1 != name) ++ [(name, port)] }

/-- Starts a package for a task unless it runs already, and remembers its port. -/
def start (m : PackageManager) (run : Spawn → Except FileFault PackageOutput) (name : String) (task : TaskId)
    (localPort : Port) : Except ChannelError Port × PackageManager :=
  match m.plan name task localPort with
  | .running port => (.ok port, m)
  | .refused e => (.error e, m)
  | .spawn program =>
    match handshake program (run program) with
    | .ok port => (.ok port, m.remember name port)
    | .error e => (.error e, m)

end PackageManager

end ScriptRunner
