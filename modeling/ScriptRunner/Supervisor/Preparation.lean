import ScriptRunner.Script.Registry
import ScriptRunner.Script.Titles
import ScriptRunner.Supervisor.State
import ScriptRunner.Task.Run

/-!
# Preparing a run

Before a run is launched its script is looked up and checked, its title is put into the language of the run, and its
program is generated and compiled. The first of these that fails ends the run.
-/

namespace ScriptRunner

namespace Script.Registry

/-- The program of a script with values for its own parameters. -/
def programText (r : Registry) (d : Definition) (values : Dict String) : Except SupervisorError String :=
  (r.compile [{ name := d.name, values, children := d.tree, disabled := false }]).mapError .compile

/-- The program that a run of a script would execute. -/
def sourceOf (r : Registry) (script : String) (values : Dict String) : Except SupervisorError String :=
  match r.find? script with
  | none => .error (.scriptNotFound script)
  | some d => r.programText d values

end Script.Registry

/-- What runs are prepared with. -/
structure Workshop where
  scripts : Script.Registry
  /-- A role may run a script. -/
  mayRun : UInt32 → Script.Definition → Bool
  titles : Script.TitleTable
  compile : String → Except EngineError Bytecode

namespace Workshop

/-- The script that a request may run. -/
def runnableScript (w : Workshop) (request : RunRequest) : Except SupervisorError Script.Definition :=
  match w.scripts.find? request.script with
  | none => .error (.scriptNotFound request.script)
  | some d =>
    if !w.mayRun request.roleId d then .error (.accessDenied d.name request.roleId)
    else if d.unrunnable then .error (.unrunnable d.name)
    else .ok d

/-- The language of a run: the one asked for, unless it is empty, else the default one. -/
def language (c : SupervisorSettings) (request : RunRequest) : String :=
  match request.lang with
  | some lang => if lang.isEmpty then c.defaultLang else lang
  | none => c.defaultLang

def header (w : Workshop) (c : SupervisorSettings) (request : RunRequest) (r : Reservation) (d : Script.Definition) :
    Header where
  taskId := r.taskId
  name := d.name
  title := w.titles.localize c.defaultLang (language c request) d.displayTitle
  lang := language c request
  userId := request.userId
  roleId := request.roleId
  httpPort := r.httpPort
  localPort := r.localPort
  serverPort := c.serverPort
  console := request.console
  logLevel := c.logLevel
  restricted := c.restricted
  maxTasks := if c.restricted then c.maxTasks else 0
  data := request.data
  extra := request.extra

/-- The header and the compiled program of a run. -/
def prepare (w : Workshop) (c : SupervisorSettings) (request : RunRequest) (r : Reservation) :
    Except SupervisorError (Header × Bytecode) := do
  let d ← w.runnableScript request
  let text ← w.scripts.programText d request.values
  let program ← (w.compile text).mapError .engine
  .ok (w.header c request r d, program)

end Workshop

end ScriptRunner
