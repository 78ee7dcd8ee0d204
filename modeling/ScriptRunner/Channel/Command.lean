import ScriptRunner.Channel.Envelope
import ScriptRunner.Task.Header

/-!
# Commands to a task and their answers

A request and its answer have one form. An answer repeats the task and the number of its request; it is an error when
its error text is not empty.
-/

namespace ScriptRunner

structure Command where
  taskId : TaskId
  /-- Tells this exchange from all others of the process. -/
  unique : UInt64
  finished : Bool
  cmd : String
  error : String
  value : Json

namespace Command

def request (taskId : TaskId) (unique : UInt64) (cmd : String) (value : Json) : Command :=
  { taskId, unique, finished := false, cmd, error := "", value }

/-- The answer to a command that was carried out. -/
def reply (c : Command) (value : Json) : Command :=
  { c with finished := true, error := "", value }

/-- The answer to a command that failed. -/
def replyError (c : Command) (error : String) : Command :=
  { c.reply .null with error }

def isError (c : Command) : Bool := !c.error.isEmpty

def json (c : Command) : Json :=
  .object [("task_id", .int c.taskId.toNat), ("unique", .int c.unique.toNat), ("finished", .bool c.finished),
    ("cmd", .string c.cmd), ("error", .string c.error), ("value", c.value)]

variable {σ : Type} [Format σ]

def decoder : Decoder σ Command :=
  Fields.decoder
    (.more (.required "task_id" Decoder.uint32) <|
     .more (.required "unique" Decoder.uint64) <|
     .more (.withDefault "finished" Decoder.boolean false) <|
     .more (.withDefault "cmd" Decoder.string "") <|
     .more (.withDefault "error" Decoder.string "") <|
     .more (.withDefault "value" Decoder.any .null) .done)
    "struct CmdData"
    fun (taskId, unique, finished, cmd, error, value, ()) => { taskId, unique, finished, cmd, error, value }

end Command

end ScriptRunner
