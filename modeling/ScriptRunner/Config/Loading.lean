import ScriptRunner.Config.Validation
import ScriptRunner.Files
import ScriptRunner.Yaml.Format

/-!
# Where settings come from

Settings are read from a YAML text, then variables of the environment override single ones, then the result is checked.
Only the check can stop without an error of its own.
The variables of one program share the start of their names. A variable that is not UTF-8 counts as not set; numbers and
truth values are trimmed, texts are taken as they are.
-/

namespace ScriptRunner

/-- The bytes of each variable that is set. -/
abbrev Environment := String → Option Text.Bytes

/-- Why a variable cannot be used. -/
inductive VariableFault where
  | integer (name : String) (fault : IntegerFault)
  | boolean (name : String)
  | logLevel (text : String)
  | logFormat (text : String)
  deriving DecidableEq, Repr

def VariableFault.message : VariableFault → String
  | .integer name fault => s!"Invalid {name}: {fault.message}"
  | .boolean name => s!"Invalid {name}: provided string was not `true` or `false`"
  | .logLevel text => s!"Invalid LOG_LEVEL: {text}"
  | .logFormat text => s!"Invalid LOG_FORMAT: {text}"

inductive ConfigError where
  | unreadable (fault : FileFault)
  | malformed (failure : Failure)
  | variable (fault : VariableFault)
  | domain (error : DomainError)

/-- The message, which tells of the cause too. -/
def ConfigError.message : ConfigError → String
  | .unreadable fault => s!"Failed to read config file: {fault.message}"
  | .malformed failure => s!"Failed to parse config: {failure.messageWithPath}"
  | .variable fault => s!"Environment variable error: {fault.message}"
  | .domain error => error.message

/-- The messages of the error and of the causes under it. -/
def ConfigError.messages (e : ConfigError) : List String :=
  e.message ::
    match e with
    | .unreadable fault => [fault.message]
    | .malformed failure => [failure.messageWithPath]
    | .variable _ | .domain _ => []

/-- Reads settings of a program whose variables start with a name of its own. -/
structure SettingsSource where
  family : String
  environment : Environment
  /-- What stands at a path. -/
  pathKind : String → PathKind

namespace SettingsSource

def variableName (source : SettingsSource) (name : String) : String := s!"{source.family}_{name}"

/-- The text of a variable. -/
def text? (source : SettingsSource) (name : String) : Option String :=
  (source.environment (source.variableName name)).bind fun bytes => (Text.decodeUtf8 bytes).toOption

def integer? (source : SettingsSource) (range : IntRange) (name : String) : Except VariableFault (Option Int) :=
  match source.text? name with
  | none => .ok none
  | some s =>
    match range.parseDecimal (Text.trim s) with
    | .ok n => .ok (some n)
    | .error fault => .error (.integer (source.variableName name) fault)

def boolean? (source : SettingsSource) (name : String) : Except VariableFault (Option Bool) :=
  match source.text? name with
  | none => .ok none
  | some s =>
    let word := Text.trim s
    if word = "true" then .ok (some true)
    else if word = "false" then .ok (some false)
    else .error (.boolean (source.variableName name))

def logLevel? (source : SettingsSource) : Except VariableFault (Option LogLevel) :=
  match source.text? "LOG_LEVEL" with
  | none => .ok none
  | some s =>
    match LogLevel.parse? s with
    | some l => .ok (some l)
    | none => .error (.logLevel s)

def logFormat? (source : SettingsSource) : Except VariableFault (Option LogFormat) :=
  match source.text? "LOG_FORMAT" with
  | none => .ok none
  | some s =>
    match LogFormat.parse? s with
    | some f => .ok (some f)
    | none => .error (.logFormat s)

def port (n : Option Int) (old : Port) : Port := (n.map fun n => UInt16.ofNat n.toNat).getD old

def count (n : Option Int) (old : UInt64) : UInt64 := (n.map fun n => UInt64.ofNat n.toNat).getD old

def overrideExecution (source : SettingsSource) (s : ExecutionSettings) : Except VariableFault ExecutionSettings := do
  let basePort ← source.integer? .uint16 "BASE_PORT"
  let portPoolSize ← source.integer? .usize "PORT_POOL_SIZE"
  let restricted ← source.boolean? "RESTRICTED"
  let maxTasks ← source.integer? .usize "MAX_TASKS"
  let packageTimeoutMillis ← source.integer? .uint64 "PACKAGE_HANDSHAKE_TIMEOUT_MS"
  .ok
    { basePort := port basePort s.basePort
      portPoolSize := count portPoolSize s.portPoolSize
      restricted := restricted.getD s.restricted
      maxTasks := count maxTasks s.maxTasks
      defaultLang := (source.text? "DEFAULT_LANG").getD s.defaultLang
      packagesDir := source.text? "PACKAGES_DIR" <|> s.packagesDir
      packageTimeoutMillis := count packageTimeoutMillis s.packageTimeoutMillis }

def overrideServer (source : SettingsSource) (s : ServerSettings) : Except VariableFault ServerSettings := do
  let serverPort ← source.integer? .uint16 "SERVER_PORT"
  .ok { bindAddress := (source.text? "SERVER_BIND_ADDRESS").getD s.bindAddress, port := port serverPort s.port }

def overrideLogging (source : SettingsSource) (s : LoggingSettings) : Except VariableFault LoggingSettings := do
  let level ← source.logLevel?
  let format ← source.logFormat?
  .ok { s with level := level.getD s.level, format := format.getD s.format }

/-- The settings with those that variables override. -/
def override (source : SettingsSource) (s : Settings) : Except VariableFault Settings := do
  let execution ← source.overrideExecution s.execution
  let server ← source.overrideServer s.server
  let logging ← source.overrideLogging s.logging
  .ok
    { execution, server, logging
      storage := { traceFile := source.text? "TRACE_FILE" <|> s.storage.traceFile }
      scripts := { dir := source.text? "SCRIPTS_DIR" <|> s.scripts.dir } }

/-- The variables that override settings. -/
def variableNames (source : SettingsSource) : List String :=
  ["BASE_PORT", "PORT_POOL_SIZE", "RESTRICTED", "MAX_TASKS", "DEFAULT_LANG", "PACKAGES_DIR",
    "PACKAGE_HANDSHAKE_TIMEOUT_MS", "SERVER_BIND_ADDRESS", "SERVER_PORT", "LOG_LEVEL", "LOG_FORMAT", "TRACE_FILE",
    "SCRIPTS_DIR"].map source.variableName

/-- The settings of a YAML text; a blank one leaves all of them at their defaults. -/
def parse (text : String) : Except ConfigError Settings :=
  if Text.isBlankText text then .ok .default else (Yaml.decodeText Settings.decoder text).mapError .malformed

/-- The settings of a file if one is given, before any variable. -/
def given (content : Option (Except FileFault Text.Bytes)) : Except ConfigError Settings :=
  match content with
  | none => .ok .default
  | some content =>
    match readText content with
    | .ok text => parse text
    | .error fault => .error (.unreadable fault)

/-- The settings of a file if one is given, with those that variables override. -/
def draft (source : SettingsSource) (content : Option (Except FileFault Text.Bytes)) : Except ConfigError Settings := do
  (source.override (← given content)).mapError .variable

/-- Settings that have passed all checks. -/
def check (source : SettingsSource) (s : Settings) : Except (Halt ConfigError) Settings :=
  match s.validate source.pathKind with
  | .ok () => .ok s
  | .error e => .error (e.map .domain)

/-- The settings of a file if one is given, else those of the variables. -/
def load (source : SettingsSource) (content : Option (Except FileFault Text.Bytes)) :
    Except (Halt ConfigError) Settings := do
  source.check (← (source.draft content).mapError .reported)

/-- The settings that the variables alone give. -/
def ofEnvironment (source : SettingsSource) : Except (Halt ConfigError) Settings := source.load none

/-- The settings of a file. -/
def ofFile (source : SettingsSource) (content : Except FileFault Text.Bytes) : Except (Halt ConfigError) Settings :=
  source.load (some content)

end SettingsSource

end ScriptRunner
