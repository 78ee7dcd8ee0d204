import ScriptRunner.Channel.Handoff
import ScriptRunner.CommandLine.Host
import ScriptRunner.CommandLine.Invocation
import ScriptRunner.CommandLine.Usage
import ScriptRunner.Script.Registry
import ScriptRunner.Supervisor.Failure
import ScriptRunner.Supervisor.Preparation
import ScriptRunner.Yaml.Printer

/-!
# The program

A command line is read, settings and scripts are loaded, and the command is carried out. The commands that check or write
settings and the one that prints the program of a script end with an outcome. Those that start the supervisor or run a
task end with what is to be started: sockets, processes and the engine are the matter of the caller. Where a sum of the
settings goes past its range, the program stops without an outcome.
-/

namespace ScriptRunner.CommandLine

/-! ## Failures -/

/-- A failure with its causes, outermost first. -/
structure CommandFailure where
  message : String
  causes : List String
  deriving DecidableEq, Repr

namespace CommandFailure

/-- A text whose further lines stand under the first one. -/
def indented (margin : Nat) (text : String) : String :=
  text.replace "\n" ("\n" ++ String.ofList (List.replicate margin ' '))

/-- The lines that name the causes. Several causes are numbered. -/
def causeLines : List String → List String
  | [] => []
  | [cause] => ["    " ++ indented 4 cause]
  | causes => causes.zipIdx.map fun (cause, n) =>
      let number := toString n
      String.ofList (List.replicate (5 - number.length) ' ') ++ number ++ ": " ++ indented 7 cause

def report (f : CommandFailure) : String :=
  "Error: " ++ f.message ++ "\n"
    ++ if f.causes.isEmpty then "" else "\nCaused by:\n" ++ String.join ((causeLines f.causes).map (· ++ "\n"))

def outcome (f : CommandFailure) : Outcome := ⟨1, "", f.report⟩

end CommandFailure

/-- What a run of the program comes to. -/
inductive Ending where
  | done (outcome : Outcome)
  /-- A sum goes past its range, and the program stops there. -/
  | stopped
  /-- The supervisor is to be started. -/
  | serve (settings : Settings) (scripts : Script.Registry)
  /-- The supervisor is to be started for one run. -/
  | run (settings : Settings) (scripts : Script.Registry) (request : RunRequest)
  /-- A task is to be run. -/
  | child (header : Header) (program : Bytecode) (logLevel : String)

section

variable {m : Type → Type} [Monad m]

/-! ## Settings and scripts -/

/-- The first part of the names of the variables. -/
def variableFamily : String := "SPROCKET"

/-- The settings of a file if one is given, else those of the variables. -/
def loadSettings (host : Host m) (path : Option String) : m (Except (Halt ConfigError) Settings) := do
  let content ← path.mapM host.content
  let source : SettingsSource :=
    { family := variableFamily, environment := ← host.environment, pathKind := fun _ => .absent }
  match source.draft content with
  | .error e => return .error (.reported e)
  | .ok s =>
    let kinds ← s.checkedPaths.mapM fun path => do return (path, ← host.kindOf path)
    let kindOf (path : String) : PathKind := ((kinds.find? fun k => k.1 == path).map Prod.snd).getD .absent
    return { source with pathKind := kindOf }.check s

/-- The settings of a run. -/
def runSettings (host : Host m) (path : Option String) : m (Except (Halt CommandFailure) Settings) := do
  let place := match path with
    | some path => "from " ++ Text.quotedPath path
    | none => "from environment"
  return (← loadSettings host path).mapError
    (Halt.map fun e => ⟨s!"Failed to load configuration {place}", e.messages⟩)

/-- The scripts of the directory in the settings, or else those that are always there. -/
def loadScripts (host : Host m) (s : Settings) : m (Except CommandFailure Script.Registry) :=
  match s.scripts.dir with
  | none => return .ok .withBuiltins
  | some dir => do
    return (Script.Registry.load dir (← host.listing dir)).mapError fun e =>
      ⟨s!"Failed to load scripts from {Text.quotedPath dir}", [(SupervisorError.registry e.message).message]⟩

/-! ## Commands -/

/-- What is said of settings that have passed all checks. -/
def summary (s : Settings) (lastPort : Port) : String :=
  let x := s.execution
  let ports := s!"{x.firstPort.toNat}..={lastPort.toNat}"
  "Configuration is valid\n"
    ++ s!"  supervisor: {s.server.listenAddress}, task ports: {ports}\n"
    ++ if x.restricted then s!"  restricted mode: at most {x.maxTasks.toNat} tasks\n" else ""

/-- Checks the settings in a file. -/
def validateConfig (host : Host m) (path : String) : m Ending := do
  match ← loadSettings host (some path) with
  | .error (.reported e) =>
    return .done (CommandFailure.outcome ⟨s!"Invalid configuration in {Text.quotedPath path}", e.messages⟩)
  | .error .overflow => return .stopped
  | .ok s =>
    match s.execution.lastPort? with
    | none => return .stopped
    | some lastPort => return .done (.success (summary s lastPort))

/-- The default settings as a file. -/
def sampleConfig : String := Yaml.write Settings.default.json

/-- Writes the default settings. A file that is there is kept unless it is to be overwritten. -/
def generateConfig (host : Host m) (force : Bool) : Option String → m Outcome
  | none => return .success sampleConfig
  | some path => do
    if !force && (← host.kindOf path) ≠ .absent then
      return CommandFailure.outcome ⟨s!"{Text.quotedPath path} already exists, use --force to overwrite", []⟩
    match ← host.store path (Text.encodeUtf8 sampleConfig) with
    | .ok () => return .success s!"Sample configuration written to {path}\n"
    | .error fault => return CommandFailure.outcome ⟨s!"Failed to write {Text.quotedPath path}", [fault.message]⟩

/-- Prints the program that a run of a script would execute. -/
def compileScript (scripts : Script.Registry) (script : String) (params : List (String × String)) : Outcome :=
  match scripts.sourceOf script (valuesOf params) with
  | .ok text => .success text
  | .error e => CommandFailure.outcome ⟨s!"Failed to compile '{script}'", [e.message]⟩

/-- The request for a run from the command line. -/
def runRequest (script : String) (lang : Option String) (params : List (String × String)) : RunRequest where
  script
  lang
  userId := 0
  roleId := 0
  values := valuesOf params
  data := .null
  console := true
  extra := .empty

/-- Takes on the job that comes as input. -/
def takeJob (host : Host m) (logLevel : Option String) : m Ending := do
  match Handoff.read (← host.input) with
  | .error e =>
    let reason := e.toChannelError.message
    return .done ⟨2, "", s!"sprocket child: Failed to decode job from stdin: {reason}\n"⟩
  | .ok (header, program) => return .child header program ((logLevel <|> header.logLevel).getD "info")

/-- Carries out a command with settings and scripts. -/
def carryOut (settings : Settings) (scripts : Script.Registry) : Action → Ending
  | .run script lang params => .run settings scripts (runRequest script lang params)
  | .compile script params => .done (compileScript scripts script params)
  | _ => .serve settings scripts

/-- What is said when there is nothing to do. -/
def noCommand : String := "No command given. Try `sprocket --help`.\n"

/-- Carries out what a command line asks for. -/
def perform (host : Host m) (i : Invocation) : m Ending :=
  if i.child then takeJob host i.logLevel
  else
    match i.action with
    | none => return .done ⟨0, "", noCommand⟩
    | some (.validateConfig path) => validateConfig host path
    | some (.generateConfig output force) => return .done (← generateConfig host force output)
    | some action => do
      match ← runSettings host i.config with
      | .error (.reported f) => return .done f.outcome
      | .error .overflow => return .stopped
      | .ok settings =>
        match ← loadScripts host settings with
        | .error f => return .done f.outcome
        | .ok scripts => return carryOut settings scripts action

/-- A run of the program. -/
def start (host : Host m) (arguments : List String) : m Ending :=
  match Invocation.parse arguments with
  | .error e => return .done e.outcome
  | .ok i => perform host i

end

end ScriptRunner.CommandLine
