import ScriptRunner.Task.Header

/-!
# What goes wrong between processes

One type for the faults of every exchange between the supervisor, the processes of the runs and the packages. An
exchange that failed on the way may be tried again; one that broke the protocol may not.
-/

namespace ScriptRunner

inductive ChannelError where
  | serialization (detail : String)
  | deserialization (detail : String)
  | io (detail : String)
  | transport (detail : String)
  | versionMismatch (expected actual : UInt32)
  /-- The answer is for another task. -/
  | taskMismatch (expected actual : TaskId)
  /-- The other side reports an error. -/
  | remote (text : String)
  | timeout
  | handshake (detail : String)
  | invalidMessage (detail : String)
  deriving DecidableEq, Repr

namespace ChannelError

def message : ChannelError → String
  | serialization detail => s!"Serialization error: {detail}"
  | deserialization detail => s!"Deserialization error: {detail}"
  | io detail => s!"IO error: {detail}"
  | transport detail => s!"Transport error: {detail}"
  | versionMismatch expected actual =>
    s!"Protocol version mismatch: expected {expected.toNat}, got {actual.toNat}"
  | taskMismatch expected actual => s!"Protocol mismatch: expected task {expected.toNat}, got {actual.toNat}"
  | remote text => s!"Remote error: {text}"
  | timeout => "Timeout waiting for response"
  | handshake detail => s!"Handshake failed: {detail}"
  | invalidMessage detail => s!"Invalid message format: {detail}"

/-- The exchange may succeed when it is tried again. -/
def isRetryable : ChannelError → Bool
  | io _ | timeout | transport _ => true
  | _ => false

/-- The other side does not keep to the protocol. -/
def isFatal : ChannelError → Bool
  | versionMismatch _ _ | taskMismatch _ _ | invalidMessage _ => true
  | _ => false

end ChannelError

end ScriptRunner
