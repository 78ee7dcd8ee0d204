import ScriptRunner.Task.Header
import ScriptRunner.Task.Status

/-!
# The record of a task and the reports that change it

The supervisor keeps one record for each run. The process of the run reports changes of its status; a report whose time
is 0 is about the present. Observers get every change as a frame with the record as it then stands.
-/

namespace ScriptRunner

structure Task where
  id : TaskId
  status : TaskStatus
  name : String
  title : String
  userId : UInt32
  roleId : UInt32
  httpPort : Port
  localPort : Port
  /-- Unix seconds. -/
  startedAt : Int64
  /-- Unix seconds, 0 before the end. -/
  finishedAt : Int64
  message : String
  deriving DecidableEq, Repr, Inhabited

namespace Task

/-- The record of a run that is about to be launched. -/
def ofHeader (h : Header) (now : Int64) : Task where
  id := h.taskId
  status := .start
  name := h.name
  title := h.title
  userId := h.userId
  roleId := h.roleId
  httpPort := h.httpPort
  localPort := h.localPort
  startedAt := now
  finishedAt := 0
  message := ""

def isTerminal (t : Task) : Bool := t.status.isTerminal

def json (t : Task) : Json :=
  .object [("id", .int t.id.toNat), ("status", t.status.json), ("name", .string t.name), ("title", .string t.title),
    ("user_id", .int t.userId.toNat), ("role_id", .int t.roleId.toNat), ("http_port", .int t.httpPort.toNat),
    ("local_port", .int t.localPort.toNat), ("started_at", .int t.startedAt.toInt),
    ("finished_at", .int t.finishedAt.toInt), ("message", .string t.message)]

variable {σ : Type} [Format σ]

def decoder : Decoder σ Task :=
  Fields.decoder
    (.more (.required "id" Decoder.uint32) <|
     .more (.required "status" TaskStatus.decoder) <|
     .more (.required "name" Decoder.string) <|
     .more (.required "title" Decoder.string) <|
     .more (.required "user_id" Decoder.uint32) <|
     .more (.required "role_id" Decoder.uint32) <|
     .more (.required "http_port" Decoder.uint16) <|
     .more (.required "local_port" Decoder.uint16) <|
     .more (.required "started_at" Decoder.int64) <|
     .more (.required "finished_at" Decoder.int64) <|
     .more (.required "message" Decoder.string) .done)
    "struct Task"
    fun (id, status, name, title, userId, roleId, httpPort, localPort, startedAt, finishedAt, message, ()) =>
      { id, status, name, title, userId, roleId, httpPort, localPort, startedAt, finishedAt, message }

end Task

/-- What a run reports about its status. -/
structure StatusReport where
  taskId : TaskId
  status : TaskStatus
  message : String
  /-- Unix seconds, 0 for the present. -/
  time : Int64
  deriving DecidableEq, Repr, Inhabited

namespace StatusReport

/-- The time that the report is about. -/
def effectiveTime (r : StatusReport) (now : Int64) : Int64 :=
  if r.time = 0 then now else r.time

def json (r : StatusReport) : Json :=
  .object [("TaskID", .int r.taskId.toNat), ("Status", r.status.json), ("Message", .string r.message),
    ("Time", .int r.time.toInt)]

variable {σ : Type} [Format σ]

def decoder : Decoder σ StatusReport :=
  Fields.decoder
    (.more (.required "TaskID" Decoder.uint32) <|
     .more (.required "Status" TaskStatus.decoder) <|
     .more (.withDefault "Message" Decoder.string "") <|
     .more (.withDefault "Time" Decoder.int64 0) .done)
    "struct StatusReport"
    fun (taskId, status, message, time, ()) => { taskId, status, message, time }

end StatusReport

/-- What observers get: a change of status, or the announcement that the connection ends. -/
structure ObserverFrame where
  cmd : UInt32
  status : Option TaskStatus
  message : String
  /-- Unix seconds, written as a text of digits. -/
  time : Int64
  task : Option Task
  deriving DecidableEq, Repr, Inhabited

namespace ObserverFrame

def statusCommand : UInt32 := 0

def closeCommand : UInt32 := 1

def ofTask (t : Task) (time : Int64) : ObserverFrame where
  cmd := statusCommand
  status := some t.status
  message := t.message
  time := time
  task := some t

def close (now : Int64) : ObserverFrame where
  cmd := closeCommand
  status := none
  message := ""
  time := now
  task := none

def json (f : ObserverFrame) : Json :=
  .object [("cmd", .int f.cmd.toNat), ("status", (f.status.map TaskStatus.json).getD .null),
    ("message", .string f.message), ("time", .string (toString f.time.toInt)),
    ("task", (f.task.map Task.json).getD .null)]

variable {σ : Type} [Format σ]

/-- A time that is written as a text. -/
def timeDecoder : Decoder σ Int64 :=
  Decoder.derived Decoder.string fun s =>
    match IntRange.int64.parseDecimal s with
    | .ok n => .ok (Int64.ofInt n)
    | .error fault => .error (.integerText fault)

def decoder : Decoder σ ObserverFrame :=
  Fields.decoder
    (.more (.required "cmd" Decoder.uint32) <|
     .more (.optional "status" TaskStatus.decoder) <|
     .more (.required "message" Decoder.string) <|
     .more (.required "time" timeDecoder) <|
     .more (.optional "task" Task.decoder) .done)
    "struct ObserverFrame"
    fun (cmd, status, message, time, task, ()) => { cmd, status, message, time, task }

end ObserverFrame

end ScriptRunner
