import ScriptRunner.Config.Logging
import ScriptRunner.Number.Checked
import ScriptRunner.Task.Header

/-!
# Settings

The settings of the program in five groups. Every setting has a default, so any part of a document may be left out.
-/

namespace ScriptRunner

/-- How tasks are run and which ports they get. -/
structure ExecutionSettings where
  /-- The ports of tasks start right after this one. -/
  basePort : Port
  portPoolSize : UInt64
  /-- The number of live tasks is limited. -/
  restricted : Bool
  maxTasks : UInt64
  /-- The language of titles that lack the one asked for. -/
  defaultLang : String
  packagesDir : Option String
  packageTimeoutMillis : UInt64
  deriving DecidableEq, Repr

/-- Where the supervisor listens. -/
structure ServerSettings where
  bindAddress : String
  port : Port
  deriving DecidableEq, Repr

structure LoggingSettings where
  level : LogLevel
  format : LogFormat
  includeLocation : Bool
  directives : List String
  deriving DecidableEq, Repr

/-- Where the records of ended tasks go; without a file they are only kept in memory. -/
structure StorageSettings where
  traceFile : Option String
  deriving DecidableEq, Repr

/-- Where definitions come from. -/
structure ScriptsSettings where
  dir : Option String
  deriving DecidableEq, Repr

structure Settings where
  execution : ExecutionSettings
  server : ServerSettings
  logging : LoggingSettings
  storage : StorageSettings
  scripts : ScriptsSettings
  deriving DecidableEq, Repr

namespace ExecutionSettings

def default : ExecutionSettings where
  basePort := 3234
  portPoolSize := 64
  restricted := false
  maxTasks := 3
  defaultLang := "en"
  packagesDir := none
  packageTimeoutMillis := 300

/-- The first port after the base, or the highest port there is. -/
def firstPort (s : ExecutionSettings) : Port :=
  if s.basePort = 65535 then 65535 else s.basePort + 1

/-- The base plus the size of the pool, if 64 bits hold it. -/
def poolEnd? (s : ExecutionSettings) : Option UInt64 := checkedSum s.basePort.toUInt64 s.portPoolSize

/-- The last port of the pool, or the highest port there is. -/
def lastPort? (s : ExecutionSettings) : Option Port := s.poolEnd?.map fun last => (min last 65535).toUInt16

/-- The port belongs to the pool. The end of the pool only matters for ports from its start on. -/
def ownsPort? (s : ExecutionSettings) (port : Port) : Option Bool :=
  if s.firstPort ≤ port then s.lastPort?.map fun last => decide (port ≤ last) else some false

end ExecutionSettings

namespace ServerSettings

def default : ServerSettings := ⟨"127.0.0.1", 3234⟩

def listenAddress (s : ServerSettings) : String := s!"{s.bindAddress}:{s.port.toNat}"

end ServerSettings

def LoggingSettings.default : LoggingSettings := ⟨.info, .text, false, []⟩

def StorageSettings.default : StorageSettings := ⟨none⟩

def ScriptsSettings.default : ScriptsSettings := ⟨none⟩

def Settings.default : Settings := ⟨.default, .default, .default, .default, .default⟩

/-! ## JSON form -/

/-- A member for a value that is there. -/
def presentText (key : String) : Option String → List (String × Json)
  | none => []
  | some s => [(key, .string s)]

namespace Settings

/-- The settings in the order of their declaration, without what is absent or empty. -/
def json (s : Settings) : Json :=
  .object
    [("execution", .object ([("base_port", .int s.execution.basePort.toNat),
        ("port_pool_size", .int s.execution.portPoolSize.toNat), ("restricted", .bool s.execution.restricted),
        ("max_tasks", .int s.execution.maxTasks.toNat), ("default_lang", .string s.execution.defaultLang)]
        ++ presentText "packages_dir" s.execution.packagesDir
        ++ [("package_handshake_timeout_ms", .int s.execution.packageTimeoutMillis.toNat)])),
      ("server", .object [("bind_address", .string s.server.bindAddress), ("port", .int s.server.port.toNat)]),
      ("logging", .object ([("level", .string s.logging.level.name), ("format", .string s.logging.format.name),
        ("include_location", .bool s.logging.includeLocation)]
        ++ if s.logging.directives.isEmpty then [] else [("directives", .array (s.logging.directives.map .string))])),
      ("storage", .object (presentText "trace_file" s.storage.traceFile)),
      ("scripts", .object (presentText "dir" s.scripts.dir))]

end Settings

section Decoding

variable {σ : Type} [Format σ]

/-- A path, which is any text. -/
def pathDecoder : Decoder σ String := fun p doc =>
  match Decoder.string p doc with
  | .error ⟨.invalidType got _, path⟩ => .error ⟨.invalidType got "path string", path⟩
  | r => r

def ExecutionSettings.decoder : Decoder σ ExecutionSettings :=
  let d := ExecutionSettings.default
  Fields.decoder
    (.more (.withDefault "base_port" Decoder.uint16 d.basePort) <|
     .more (.withDefault "port_pool_size" Decoder.usize d.portPoolSize) <|
     .more (.withDefault "restricted" Decoder.boolean d.restricted) <|
     .more (.withDefault "max_tasks" Decoder.usize d.maxTasks) <|
     .more (.withDefault "default_lang" Decoder.string d.defaultLang) <|
     .more (.withDefault "packages_dir" (Decoder.optional pathDecoder) d.packagesDir) <|
     .more (.withDefault "package_handshake_timeout_ms" Decoder.uint64 d.packageTimeoutMillis) .done)
    "struct ExecutionConfig"
    fun (basePort, portPoolSize, restricted, maxTasks, defaultLang, packagesDir, packageTimeoutMillis, ()) =>
      { basePort, portPoolSize, restricted, maxTasks, defaultLang, packagesDir, packageTimeoutMillis }

def ServerSettings.decoder : Decoder σ ServerSettings :=
  let d := ServerSettings.default
  Fields.decoder
    (.more (.withDefault "bind_address" Decoder.string d.bindAddress) <|
     .more (.withDefault "port" Decoder.uint16 d.port) .done)
    "struct ServerConfig"
    fun (bindAddress, port, ()) => { bindAddress, port }

def LoggingSettings.decoder : Decoder σ LoggingSettings :=
  let d := LoggingSettings.default
  Fields.decoder
    (.more (.withDefault "level" LogLevel.decoder d.level) <|
     .more (.withDefault "format" LogFormat.decoder d.format) <|
     .more (.withDefault "include_location" Decoder.boolean d.includeLocation) <|
     .more (.withDefault "directives" (Decoder.list Decoder.string) d.directives) .done)
    "struct LoggingConfig"
    fun (level, format, includeLocation, directives, ()) => { level, format, includeLocation, directives }

def StorageSettings.decoder : Decoder σ StorageSettings :=
  Fields.decoder (.more (.withDefault "trace_file" (Decoder.optional pathDecoder) none) .done) "struct StorageConfig"
    fun (traceFile, ()) => { traceFile }

def ScriptsSettings.decoder : Decoder σ ScriptsSettings :=
  Fields.decoder (.more (.withDefault "dir" (Decoder.optional pathDecoder) none) .done) "struct ScriptsConfig"
    fun (dir, ()) => { dir }

def Settings.decoder : Decoder σ Settings :=
  let d := Settings.default
  Fields.decoder
    (.more (.withDefault "execution" ExecutionSettings.decoder d.execution) <|
     .more (.withDefault "server" ServerSettings.decoder d.server) <|
     .more (.withDefault "logging" LoggingSettings.decoder d.logging) <|
     .more (.withDefault "storage" StorageSettings.decoder d.storage) <|
     .more (.withDefault "scripts" ScriptsSettings.decoder d.scripts) .done)
    "struct SprocketConfig"
    fun (execution, server, logging, storage, scripts, ()) => { execution, server, logging, storage, scripts }

end Decoding

end ScriptRunner
