import ScriptRunner.Script.Definition

/-!
# The header of a run

A header describes one run to the process that executes it. It is made once, when the run is launched.
-/

namespace ScriptRunner

abbrev TaskId := UInt32

abbrev Port := UInt16

structure Header where
  taskId : TaskId
  /-- The script at the top. -/
  name : String
  title : String
  lang : String
  userId : UInt32
  roleId : UInt32
  /-- The port that the run serves to everyone. -/
  httpPort : Port
  /-- The port on which the run takes commands. -/
  localPort : Port
  /-- The port to which the run reports its status. -/
  serverPort : Port
  console : Bool
  logLevel : Option String
  restricted : Bool
  maxTasks : UInt64
  data : Json
  /-- Fields that are passed on and not looked at. -/
  extra : Dict Json

namespace Header

def json (h : Header) : Json :=
  .object [("task_id", .int h.taskId.toNat), ("name", .string h.name), ("title", .string h.title),
    ("lang", .string h.lang), ("user_id", .int h.userId.toNat), ("role_id", .int h.roleId.toNat),
    ("http_port", .int h.httpPort.toNat), ("local_port", .int h.localPort.toNat),
    ("server_port", .int h.serverPort.toNat), ("console", .bool h.console),
    ("log_level", Script.optionalText h.logLevel), ("restricted", .bool h.restricted),
    ("max_tasks", .int h.maxTasks.toNat), ("data", h.data), ("extra", .object h.extra.entries)]

variable {σ : Type} [Format σ]

def decoder : Decoder σ Header :=
  Fields.decoder
    (.more (.required "task_id" Decoder.uint32) <|
     .more (.required "name" Decoder.string) <|
     .more (.required "title" Decoder.string) <|
     .more (.required "lang" Decoder.string) <|
     .more (.required "user_id" Decoder.uint32) <|
     .more (.required "role_id" Decoder.uint32) <|
     .more (.required "http_port" Decoder.uint16) <|
     .more (.required "local_port" Decoder.uint16) <|
     .more (.required "server_port" Decoder.uint16) <|
     .more (.withDefault "console" Decoder.boolean false) <|
     .more (.withDefault "log_level" (Decoder.optional Decoder.string) none) <|
     .more (.withDefault "restricted" Decoder.boolean false) <|
     .more (.withDefault "max_tasks" Decoder.usize 0) <|
     .more (.withDefault "data" Decoder.any .null) <|
     .more (.withDefault "extra" (Decoder.dict Decoder.any) .empty) .done)
    "struct Header"
    fun (taskId, name, title, lang, userId, roleId, httpPort, localPort, serverPort, console, logLevel, restricted,
        maxTasks, data, extra, ()) =>
      { taskId, name, title, lang, userId, roleId, httpPort, localPort, serverPort, console, logLevel, restricted,
        maxTasks, data, extra }

end Header

end ScriptRunner
