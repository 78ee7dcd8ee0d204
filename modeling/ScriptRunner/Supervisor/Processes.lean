import ScriptRunner.Channel.Handoff
import ScriptRunner.Supervisor.Failure

/-!
# The processes of runs

A run is a process of its own that reads its job from its standard input. The launch fails when the process cannot be
started or does not take its job; whatever it does afterwards it reports itself.
-/

namespace ScriptRunner

/-- The program that runs are processes of. -/
structure ProcessLauncher where
  program : String
  arguments : List String
  deriving DecidableEq, Repr

/-- What came of starting a process. -/
inductive ProcessStart where
  | notStarted (fault : FileFault)
  | jobNotTaken (fault : FileFault)
  /-- The process has its job and ends with a code, unless it is killed. -/
  | started (exit : Option Int32)
  deriving DecidableEq, Repr

namespace ProcessLauncher

/-- What the process reads. -/
def input (header : Header) (program : Bytecode) (now : Instant) : Text.Bytes :=
  Text.encodeUtf8 (Handoff.encode header program now now)

/-- The outcome of a launch: how the process will end. -/
def outcome (l : ProcessLauncher) : ProcessStart → Except SupervisorError (Option Int32)
  | .notStarted fault => .error (.handoff s!"failed to spawn {l.program}: {fault.message}")
  | .jobNotTaken fault => .error (.handoff s!"failed to write handoff: {fault.message}")
  | .started exit => .ok exit

end ProcessLauncher

end ScriptRunner
