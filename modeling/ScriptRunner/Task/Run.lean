import ScriptRunner.Task.Header

/-!
# Requests to the supervisor

The bodies of the requests that start a run, send it a command or start a package for it, and the answer to the first.
-/

namespace ScriptRunner

/-- A request to start a script. -/
structure RunRequest where
  script : String
  lang : Option String
  userId : UInt32
  roleId : UInt32
  /-- Raw values for the parameters of the script. -/
  values : Dict String
  /-- A value for the running program, passed on as it is. -/
  data : Json
  console : Bool
  extra : Dict Json

namespace RunRequest

def json (r : RunRequest) : Json :=
  .object [("script", .string r.script), ("lang", Script.optionalText r.lang), ("user_id", .int r.userId.toNat),
    ("role_id", .int r.roleId.toNat), ("values", Script.textsByKey r.values), ("data", r.data),
    ("console", .bool r.console), ("extra", .object r.extra.entries)]

variable {σ : Type} [Format σ]

def decoder : Decoder σ RunRequest :=
  Fields.decoder
    (.more (.required "script" Decoder.string) <|
     .more (.withDefault "lang" (Decoder.optional Decoder.string) none) <|
     .more (.withDefault "user_id" Decoder.uint32 0) <|
     .more (.withDefault "role_id" Decoder.uint32 0) <|
     .more (.withDefault "values" (Decoder.dict Decoder.string) .empty) <|
     .more (.withDefault "data" Decoder.any .null) <|
     .more (.withDefault "console" Decoder.boolean false) <|
     .more (.withDefault "extra" (Decoder.dict Decoder.any) .empty) .done)
    "struct RunRequest"
    fun (script, lang, userId, roleId, values, data, console, extra, ()) =>
      { script, lang, userId, roleId, values, data, console, extra }

end RunRequest

/-- The answer to a run that was started. -/
structure RunOutcome where
  taskId : TaskId
  httpPort : Port
  deriving DecidableEq, Repr, Inhabited

namespace RunOutcome

def json (o : RunOutcome) : Json :=
  .object [("task_id", .int o.taskId.toNat), ("http_port", .int o.httpPort.toNat)]

variable {σ : Type} [Format σ]

def decoder : Decoder σ RunOutcome :=
  Fields.decoder
    (.more (.required "task_id" Decoder.uint32) <| .more (.required "http_port" Decoder.uint16) .done)
    "struct RunOutcome"
    fun (taskId, httpPort, ()) => { taskId, httpPort }

end RunOutcome

/-- A request to send a command to a task. -/
structure CommandRequest where
  cmd : String
  value : Json

namespace CommandRequest

variable {σ : Type} [Format σ]

def decoder : Decoder σ CommandRequest :=
  Fields.decoder
    (.more (.required "cmd" Decoder.string) <| .more (.withDefault "value" Decoder.any .null) .done)
    "struct CommandRequest"
    fun (cmd, value, ()) => { cmd, value }

end CommandRequest

/-- A request to start a package for a task. -/
structure PackageRequest where
  name : String

namespace PackageRequest

variable {σ : Type} [Format σ]

def decoder : Decoder σ PackageRequest :=
  Fields.decoder (.more (.required "name" Decoder.string) .done) "struct PackageRequest" fun (name, ()) => { name }

end PackageRequest

end ScriptRunner
