import ScriptRunner.Config.Settings
import ScriptRunner.Files
import ScriptRunner.Text.Blank

/-!
# When settings can be used

Each group is checked on its own and the first fault in a fixed order is reported. At last the port of the supervisor must
not lie in the pool of the tasks. The end of this pool is a checked sum, so the checks of the tasks may stop instead.
-/

namespace ScriptRunner

/-- Why a group of settings cannot be used. -/
inductive SettingsFault where
  | zeroPort (field : String)
  | notPositive (field : String) (value : Int)
  | blankText (field : String)
  | poolPastLastPort (base size : Nat)
  | poolTooSmall
  | zeroTimeout
  | blankDirective (text : String)
  | emptyTraceFile
  | traceFileIsDirectory (path : String)
  | notADirectory (path : String)
  | overlappingPort (port first last : Nat)
  deriving DecidableEq, Repr

def SettingsFault.message : SettingsFault → String
  | .zeroPort field => s!"{field} cannot be 0"
  | .notPositive field value => s!"{field} must be greater than 0, got {value}"
  | .blankText field => s!"{field} cannot be empty"
  | .poolPastLastPort base size => s!"port pool {base}+{size} exceeds the highest port"
  | .poolTooSmall => "port_pool_size must hold at least one task (2 ports)"
  | .zeroTimeout => "package_handshake_timeout_ms must be greater than 0"
  | .blankDirective text => "empty filter directive " ++ Text.quoted text
  | .emptyTraceFile => "trace_file cannot be empty"
  | .traceFileIsDirectory path => s!"trace_file {path} is a directory"
  | .notADirectory path => s!"{path} is not a directory"
  | .overlappingPort port first last => s!"port {port} overlaps the task port pool {first}..={last}"

/-- A fault with the group of settings it is in. -/
structure DomainError where
  domain : String
  fault : SettingsFault
  deriving DecidableEq, Repr

def DomainError.message (e : DomainError) : String :=
  s!"Domain configuration error in {e.domain}: {e.fault.message}"

/-! ## Single checks -/

def checkPort (field : String) (port : Port) : Except SettingsFault Unit :=
  if port = 0 then .error (.zeroPort field) else .ok ()

def checkPositive (field : String) (value : Int) : Except SettingsFault Unit :=
  if value ≤ 0 then .error (.notPositive field value) else .ok ()

def checkText (field value : String) : Except SettingsFault Unit :=
  if Text.isBlankText value then .error (.blankText field) else .ok ()

/-! ## Groups -/

/-- The checks before the end of the pool is worked out. -/
def ExecutionSettings.checkPoolStart (s : ExecutionSettings) : Except SettingsFault Unit := do
  checkPort "base_port" s.basePort
  checkPositive "port_pool_size" s.portPoolSize.toNat

/-- The checks from the end of the pool on. -/
def ExecutionSettings.checkFrom (s : ExecutionSettings) (poolEnd : UInt64) : Except SettingsFault Unit :=
  if 65535 < poolEnd then .error (.poolPastLastPort s.basePort.toNat s.portPoolSize.toNat)
  else if s.portPoolSize < 2 then .error .poolTooSmall
  else do
    if s.restricted then checkPositive "max_tasks" s.maxTasks.toNat else .ok ()
    checkText "default_lang" s.defaultLang
    if s.packageTimeoutMillis = 0 then .error .zeroTimeout else .ok ()

def ExecutionSettings.validate (s : ExecutionSettings) : Except (Halt SettingsFault) Unit := do
  s.checkPoolStart.mapError .reported
  let poolEnd ← Halt.ofSum s.poolEnd?
  (s.checkFrom poolEnd).mapError .reported

def ServerSettings.validate (s : ServerSettings) : Except SettingsFault Unit := do
  checkText "bind_address" s.bindAddress
  checkPort "port" s.port

def LoggingSettings.validate (s : LoggingSettings) : Except SettingsFault Unit :=
  match s.directives.find? Text.isBlankText with
  | some d => .error (.blankDirective d)
  | none => .ok ()

def StorageSettings.validate (kind : String → PathKind) (s : StorageSettings) : Except SettingsFault Unit :=
  match s.traceFile with
  | none => .ok ()
  | some path =>
    if path.isEmpty then .error .emptyTraceFile
    else if kind path = .directory then .error (.traceFileIsDirectory path)
    else .ok ()

def ScriptsSettings.validate (kind : String → PathKind) (s : ScriptsSettings) : Except SettingsFault Unit :=
  match s.dir with
  | none => .ok ()
  | some path => if kind path = .other then .error (.notADirectory path) else .ok ()

namespace Settings

/-- The verdict on a group, under its name. -/
def inDomain (domain : String) (r : Except (Halt SettingsFault) Unit) : Except (Halt DomainError) Unit :=
  r.mapError (Halt.map (DomainError.mk domain))

/-- The verdict on each group. -/
def verdicts (kind : String → PathKind) (s : Settings) : List (String × Except (Halt DomainError) Unit) :=
  [("execution", s.execution.validate), ("server", s.server.validate.mapError .reported),
    ("logging", s.logging.validate.mapError .reported), ("storage", (s.storage.validate kind).mapError .reported),
    ("scripts", (s.scripts.validate kind).mapError .reported)].map fun (domain, r) => (domain, inDomain domain r)

/-- The verdict on the port of the supervisor. -/
def checkOverlap (s : Settings) : Except (Halt DomainError) Unit := do
  let owned ← Halt.ofSum (s.execution.ownsPort? s.server.port)
  if owned then
    let last ← Halt.ofSum s.execution.lastPort?
    .error (.reported
      ⟨"server", .overlappingPort s.server.port.toNat s.execution.firstPort.toNat last.toNat⟩)
  else .ok ()

/-- The paths whose kind decides a verdict. -/
def checkedPaths (s : Settings) : List String := s.storage.traceFile.toList ++ s.scripts.dir.toList

/-- The verdict on all settings together. -/
def validate (kind : String → PathKind) (s : Settings) : Except (Halt DomainError) Unit := do
  (s.verdicts kind).forM Prod.snd
  s.checkOverlap

end Settings

end ScriptRunner
