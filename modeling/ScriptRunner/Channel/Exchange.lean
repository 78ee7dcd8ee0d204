import ScriptRunner.Channel.Command
import ScriptRunner.Channel.Failure
import ScriptRunner.Http.Status
import ScriptRunner.Json.Format
import ScriptRunner.Text.Blank

/-!
# Sending commands

A request goes to the port of a run in an envelope. The answer counts if its envelope has the version of this protocol,
it is for the same task and it is no error, checked in this order.
-/

namespace ScriptRunner

/-- What came of sending a request. -/
inductive Exchange where
  | unreachable (detail : String)
  | timedOut
  | answered (status : Nat) (body : Text.Bytes)
  deriving DecidableEq, Repr

namespace Exchange

/-- Checks an answer against its request. -/
def check (request : Command) (answer : Envelope Command) : Except ChannelError Command :=
  if !answer.isCompatible then .error (.versionMismatch Envelope.currentVersion answer.version)
  else if answer.message.taskId ≠ request.taskId then
    .error (.taskMismatch request.taskId answer.message.taskId)
  else if answer.message.isError then .error (.remote answer.message.error)
  else .ok answer.message

/-- The text of an error for an answer that is no envelope. -/
def refusal (status : Nat) (body : Text.Bytes) : String :=
  s!"HTTP {Http.statusText status}: {Text.trim (Text.decodeLenient body)}"

/-- The answer to a request. -/
def outcome (request : Command) : Exchange → Except ChannelError Command
  | unreachable detail => .error (.transport detail)
  | timedOut => .error .timeout
  | answered status body =>
    match Json.decodeBytes (Envelope.decoder Command.decoder) body with
    | .ok answer => check request answer
    | .error failure =>
      if Http.isSuccess status then .error (.deserialization failure.message)
      else .error (.remote (refusal status body))

end Exchange

end ScriptRunner
