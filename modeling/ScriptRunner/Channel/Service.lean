import ScriptRunner.Channel.Command
import ScriptRunner.Channel.Failure
import ScriptRunner.Json.Format

/-!
# Serving commands

The process of a run answers every request that it can read, also with the error of a command that failed. The answer is
made from the request alone.
-/

namespace ScriptRunner

/-- What a process does on a command: a value or the text of an error. -/
abbrev CommandHandler := Command → Except String Json

namespace CommandHandler

/-- Gives back the value of `echo` and knows no other command. -/
def echo : CommandHandler := fun c =>
  if c.cmd = "echo" then .ok c.value else .error s!"unknown command {c.cmd}"

/-- The answer to a command. -/
def answer (handler : CommandHandler) (request : Command) : Command :=
  match handler request with
  | .ok value => request.reply value
  | .error text => request.replyError text

/-- The envelope that answers the body of a request. -/
def serve (handler : CommandHandler) (now : Instant) (body : Text.Bytes) : Except ChannelError (Envelope Command) :=
  match Json.decodeBytes (Envelope.decoder Command.decoder) body with
  | .error failure => .error (.deserialization failure.message)
  | .ok e =>
    if e.isCompatible then .ok (.wrap (handler.answer e.message) now)
    else .error (.versionMismatch Envelope.currentVersion e.version)

end CommandHandler

end ScriptRunner
