import ScriptRunner.Http.Message
import ScriptRunner.Supervisor.Failure

/-!
# Refusals on the web

Every error of the supervisor has a kind that fixes the status and the code of the answer. What went wrong inside of the
program is not told.
-/

namespace ScriptRunner

inductive WebErrorKind where
  | badRequest
  | forbidden
  | notFound
  | conflict
  | tooManyRequests
  | serviceUnavailable
  | internal
  deriving DecidableEq, Repr, Inhabited

namespace WebErrorKind

def status : WebErrorKind → Nat
  | badRequest => 400
  | forbidden => 403
  | notFound => 404
  | conflict => 409
  | tooManyRequests => 429
  | serviceUnavailable => 503
  | internal => 500

def code : WebErrorKind → String
  | badRequest => "BAD_REQUEST"
  | forbidden => "FORBIDDEN"
  | notFound => "NOT_FOUND"
  | conflict => "CONFLICT"
  | tooManyRequests => "RATE_LIMITED"
  | serviceUnavailable => "SERVICE_UNAVAILABLE"
  | internal => "INTERNAL_ERROR"

/-- The words before the message. -/
def title : WebErrorKind → String
  | badRequest => "Bad request"
  | forbidden => "Forbidden"
  | notFound => "Not found"
  | conflict => "Conflict"
  | tooManyRequests => "Too many requests"
  | serviceUnavailable => "Service unavailable"
  | internal => "Internal server error"

end WebErrorKind

structure WebError where
  kind : WebErrorKind
  detail : String
  deriving DecidableEq, Repr

namespace WebError

def message (e : WebError) : String := s!"{e.kind.title}: {e.detail}"

/-- The message that is told, without the details of what went wrong inside. -/
def publicMessage (e : WebError) : String := if e.kind = .internal then e.kind.title else e.message

def json (e : WebError) : Json :=
  .object [("error", .object [("code", .string e.kind.code), ("message", .string e.publicMessage),
    ("status", .int e.kind.status)])]

def response (e : WebError) : Http.Response := .json e.kind.status e.json

/-- The kind of an error of the supervisor. -/
def kindOf : SupervisorError → WebErrorKind
  | .scriptNotFound _ | .taskNotFound _ => .notFound
  | .accessDenied _ _ => .forbidden
  | .unrunnable _ | .compile _ | .engine (.compilation _) | .packagesDisabled => .badRequest
  | .invalidTransition _ _ _ | .taskNotRunning _ => .conflict
  | .limitExceeded _ => .tooManyRequests
  | .poolExhausted => .serviceUnavailable
  | .channel (.remote _) => .conflict
  | .channel (.handshake _) => .serviceUnavailable
  | .channel e => if e.isRetryable then .serviceUnavailable else .internal
  | _ => .internal

/-- What is told of an error of the supervisor; the error of a run is told in its own words. -/
def ofSupervisorError (e : SupervisorError) : WebError :=
  match e with
  | .channel (.remote text) => ⟨kindOf e, text⟩
  | e => ⟨kindOf e, e.message⟩

end WebError

end ScriptRunner
