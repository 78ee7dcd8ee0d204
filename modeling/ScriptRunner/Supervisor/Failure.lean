import ScriptRunner.Channel.Failure
import ScriptRunner.Engine.Bytecode
import ScriptRunner.Script.Binding
import ScriptRunner.Supervisor.Traces
import ScriptRunner.Task.Status

/-!
# Why the supervisor refuses something

A refusal names what was asked for. Some are the fault of whoever asked, the others are not.
-/

namespace ScriptRunner

inductive SupervisorError where
  | poolExhausted
  | limitExceeded (limit : UInt64)
  /-- Every number that was drawn for a new task is in use. -/
  | noFreshId
  | scriptNotFound (name : String)
  | accessDenied (script : String) (roleId : UInt32)
  | unrunnable (script : String)
  | compile (error : Script.CompileError)
  | engine (error : EngineError)
  | handoff (detail : String)
  | taskNotFound (id : TaskId)
  | invalidTransition (id : TaskId) (before after : TaskStatus)
  | taskNotRunning (id : TaskId)
  | channel (error : ChannelError)
  | storage (error : StorageError)
  | packagesDisabled
  | registry (detail : String)
  deriving DecidableEq, Repr

namespace SupervisorError

def message : SupervisorError → String
  | poolExhausted => "No free port left in the pool"
  | limitExceeded limit => s!"Too many running tasks (limit {limit.toNat})"
  | noFreshId => "No task id left"
  | scriptNotFound name => s!"Script not found: {name}"
  | accessDenied script roleId => s!"Role {roleId.toNat} may not run '{script}'"
  | unrunnable script => s!"Script '{script}' cannot be run"
  | compile error => error.message
  | engine error => error.message
  | handoff detail => s!"Handoff to child failed: {detail}"
  | taskNotFound id => s!"Task not found: {id.toNat}"
  | invalidTransition id before after => s!"Task {id.toNat} cannot move from {before.name} to {after.name}"
  | taskNotRunning id => s!"Task {id.toNat} is not running"
  | channel error => s!"IPC error: {error.message}"
  | storage error => s!"Storage error: {error.message}"
  | packagesDisabled => "No packages directory configured"
  | registry detail => s!"Registry error: {detail}"

/-- The fault is with whoever asked. -/
def isClientError : SupervisorError → Bool
  | scriptNotFound _ | accessDenied _ _ | unrunnable _ | compile _ | engine (.compilation _) | taskNotFound _
  | invalidTransition _ _ _ | taskNotRunning _ | packagesDisabled => true
  | _ => false

end SupervisorError

end ScriptRunner
