import ScriptRunner.CommandLine.Grammar
import ScriptRunner.Dict

/-!
# The command line of the program

The commands and options that the program knows, and what a command line asks it to do.
-/

namespace ScriptRunner.CommandLine

/-! ## Options -/

def configOption : OptionSpec :=
  { name := "config", rank := 0, rule := .path, placeholder := "PATH", about := "Path to configuration file"
    inherited := true }

def logLevelOption : OptionSpec :=
  { name := "log-level", rank := 1, rule := .text, placeholder := "LEVEL"
    about := "Set the log level (trace, debug, info, warn, error)", inherited := true }

def childOption : OptionSpec :=
  { name := "child", rank := 2, rule := .nothing, placeholder := ""
    about := "Run as a task child reading its job from stdin (internal use)", hidden := true }

def scriptOption (about : String) : OptionSpec :=
  { name := "script", rank := 0, rule := .text, placeholder := "NAME", about, required := true }

def langOption : OptionSpec :=
  { name := "lang", rank := 1, rule := .text, placeholder := "LANG"
    about := "Language for titles and the running program" }

def paramOption (rank : Nat) : OptionSpec :=
  { name := "param", rank, rule := .param, placeholder := "KEY=VALUE"
    about := "Parameter value for the script (repeatable)", repeatable := true }

def configFileOption : OptionSpec :=
  { name := "config-file", rank := 0, rule := .path, placeholder := "PATH"
    about := "Path to the configuration file", required := true }

def outputOption : OptionSpec :=
  { name := "output", rank := 0, rule := .path, placeholder := "PATH"
    about := "Output file path (stdout when omitted)" }

def forceOption : OptionSpec :=
  { name := "force", rank := 1, rule := .nothing, placeholder := "", about := "Overwrite existing file" }

/-! ## Commands -/

def configCommands : List CommandSpec :=
  [{ name := "validate", about := "Validate a configuration file", options := [configFileOption] },
    { name := "generate", about := "Generate a sample configuration file", options := [outputOption, forceOption] }]

def commands : List CommandSpec :=
  [{ name := "serve", about := "Start the supervisor" },
    { name := "run", about := "Run one script and wait until it ends"
      options := [scriptOption "Name of the script to run", langOption, paramOption 2] },
    { name := "compile", about := "Print the program text generated for a script"
      options := [scriptOption "Name of the script to compile", paramOption 1] },
    { name := "config", about := "Configuration management commands", commands := configCommands
      commandRequired := true }]

/-- The program itself. -/
def program : CommandSpec :=
  { name := "sprocket", about := "Sprocket CLI app", options := [configOption, logLevelOption, childOption], commands
    version := some "sprocket 0.1.0" }

/-! ## What is asked for -/

/-- What a command asks for. -/
inductive Action where
  | serve
  | run (script : String) (lang : Option String) (params : List (String × String))
  | compile (script : String) (params : List (String × String))
  | validateConfig (file : String)
  | generateConfig (output : Option String) (force : Bool)
  deriving DecidableEq, Repr

structure Invocation where
  config : Option String
  logLevel : Option String
  /-- Run the task whose job comes as input. -/
  child : Bool
  action : Option Action
  deriving DecidableEq, Repr

namespace Given

/-- The value of an option. Of an option on several commands the innermost counts. -/
def value? (given : Given) (name : String) : Option String :=
  (given.reverse.find? fun g => g.1 == name).map Prod.snd

def value (given : Given) (name : String) : String := (given.value? name).getD ""

def has (given : Given) (name : String) : Bool := (given.value? name).isSome

/-- The parameters in their order. -/
def params (given : Given) : List (String × String) :=
  (given.filter fun g => g.1 == "param").filterMap fun g => (parseParam g.2).toOption

end Given

/-- What the command of some names asks for. -/
def Action.of (names : List String) (given : Given) : Option Action :=
  match names with
  | ["serve"] => some .serve
  | ["run"] => some (.run (given.value "script") (given.value? "lang") given.params)
  | ["compile"] => some (.compile (given.value "script") given.params)
  | ["config", "validate"] => some (.validateConfig (given.value "config-file"))
  | ["config", "generate"] => some (.generateConfig (given.value? "output") (given.has "force"))
  | _ => none

/-- What a command line asks for. -/
def Invocation.parse (arguments : List String) : Except UsageError Invocation :=
  (read (Place.start program) .start arguments).map fun (names, given) =>
    { config := given.value? "config"
      logLevel := given.value? "log-level"
      child := given.has "child"
      action := Action.of names.tail given }

/-- Parameters by name. Of one name the last value counts. -/
def valuesOf (params : List (String × String)) : Dict String :=
  params.foldl (fun d (key, value) => d.insert key value) .empty

end ScriptRunner.CommandLine
