import ScriptRunner.Channel.Service
import ScriptRunner.Http.Message
import ScriptRunner.Task.Status

/-!
# The process of a run on the web

A run shows a summary of itself to everyone and takes commands on a port of its own.
-/

namespace ScriptRunner

/-- What the process of a run knows about itself. -/
structure ChildState where
  header : Header
  status : TaskStatus
  /-- Unix seconds. -/
  startedAt : Int64

namespace ChildState

open Http (Request Response)

def initial (header : Header) (now : Int64) : ChildState := ⟨header, .start, now⟩

def summary (s : ChildState) : Json :=
  .object [("task_id", .int s.header.taskId.toNat), ("name", .string s.header.name), ("title", .string s.header.title),
    ("lang", .string s.header.lang), ("status", s.status.json), ("started_at", .int s.startedAt.toInt)]

/-- Answers on the public port. -/
def servePublic (s : ChildState) (r : Request) : Response :=
  if Http.pathOf r.target ≠ "/" then .bare 404
  else if r.method = "GET" then .json 200 s.summary
  else if r.method = "HEAD" then .bare 200
  else .bare 405

end ChildState

/-- Answers on the port for commands. -/
def CommandHandler.serveControl (handler : CommandHandler) (now : Instant) (r : Http.Request) : Http.Response :=
  if Http.pathOf r.target ≠ "/cmd" then .bare 404
  else if r.method ≠ "POST" then .bare 405
  else
    match handler.serve now r.body with
    | .ok e => .json 200 (e.json Command.json)
    | .error e => .text 400 e.message

end ScriptRunner
