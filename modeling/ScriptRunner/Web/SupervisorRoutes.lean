import ScriptRunner.Supervisor.Basic
import ScriptRunner.Web.Failure

/-!
# The supervisor on the web

Scripts are run, tasks listed and commands passed on under a common path; beside it stand a check of health and the
socket of the observers. A route answers to one method, and to `HEAD` where it answers to `GET`.
-/

namespace ScriptRunner

structure WebSettings where
  /-- The path under which tasks are found. -/
  apiPath : String
  /-- Browsers of other origins may use the routes. -/
  enableCors : Bool
  deriving DecidableEq, Repr

def WebSettings.default : WebSettings := ⟨"/api", false⟩

/-- What a path stands for; the number of a task is still in escaped form. -/
inductive WebRoute where
  | health
  | observerSocket
  | reportStatus
  | run
  | tasks
  | task (id : String)
  | command (id : String)
  | package (id : String)
  deriving DecidableEq, Repr

namespace WebRoute

/-- The route of a path below the common one. -/
def ofApiSteps? : List String → Option WebRoute
  | ["taskstatus"] => some reportStatus
  | ["run"] => some run
  | ["tasks"] => some tasks
  | ["tasks", id] => if id.isEmpty then none else some (task id)
  | ["tasks", id, "cmd"] => if id.isEmpty then none else some (command id)
  | ["tasks", id, "package"] => if id.isEmpty then none else some (package id)
  | _ => none

/-- The steps of the common path; a slash at its end is of no effect. -/
def apiSteps (c : WebSettings) : List String :=
  let steps := c.apiPath.splitOn "/"
  if steps.getLast? = some "" then steps.dropLast else steps

def ofPath? (c : WebSettings) (path : String) : Option WebRoute :=
  match path.splitOn "/" with
  | ["", "health"] => some health
  | ["", "ws"] => some observerSocket
  | steps =>
    let api := apiSteps c
    if api.isPrefixOf steps then ofApiSteps? (steps.drop api.length) else none

/-- The method that a route answers to. -/
def method : WebRoute → String
  | health | observerSocket | tasks | task _ => "GET"
  | reportStatus | run | command _ | package _ => "POST"

end WebRoute

/-- What the routes need besides the supervisor. -/
structure WebSurroundings (τ : Type) where
  now : Instant
  nowSeconds : Int64
  /-- Numbers drawn for a new task. -/
  draws : List TaskId
  /-- The ports that can be bound when a run takes its first and its second port. -/
  probes : Probe × Probe := (.off, .off)
  launch : Supervisor.Launch τ
  exchange : Port → Command → Exchange
  runPackage : Spawn → Except FileFault PackageOutput

namespace WebRoute

open Http (Request Response)

variable {τ : Type}

/-- The number of a task in a path. -/
def taskId (part : String) : Except Response TaskId :=
  match Http.pathText? part with
  | none => .error (.bare 400)
  | some s =>
    match IntRange.uint32.parseDecimal s with
    | .ok n => .ok (UInt32.ofNat n.toNat)
    | .error _ => .error (.bare 400)

def body {α : Type} (d : Decoder Json.Scalar α) (r : Request) : Except Response α :=
  (Http.readBody d r).mapError Response.bare

/-- The answer to what the supervisor was asked. -/
def reply {α : Type} (status : Nat) (json : α → Json) : Except SupervisorError α → Response
  | .ok a => .json status (json a)
  | .error e => (WebError.ofSupervisorError e).response

def healthJson (s : Supervisor τ) (now : Instant) : Json :=
  let tasks := s.listTasks
  .object [("status", .string "healthy"), ("timestamp", .string now.text), ("tasks", .int tasks.length),
    ("running", .int (tasks.countP fun t => !t.isTerminal)), ("ports_in_use", .int s.portsInUse),
    ("observers", .int s.observers.size)]

/-- A request to run a script that is named. -/
def runRequest (r : Request) : Except Response RunRequest := do
  let request ← body RunRequest.decoder r
  if Text.isBlankText request.script then .error (WebError.mk .badRequest "script name is required").response
  else .ok request

/-- A command that is named. -/
def commandRequest (r : Request) : Except Response CommandRequest := do
  let request ← body CommandRequest.decoder r
  if request.cmd.isEmpty then .error (WebError.mk .badRequest "cmd is required").response else .ok request

/-- Answers on a route to its method. -/
def serve (w : WebSurroundings τ) (r : Request) (s : Supervisor τ) (route : WebRoute) : Response × Supervisor τ :=
  match route with
  | health => (.json 200 (healthJson s w.now), s)
  | observerSocket => (.bare (if r.method = "GET" then 400 else 405), s)
  | tasks => (.json 200 (.array (s.listTasks.map Task.json)), s)
  | task id =>
    match taskId id with
    | .error response => (response, s)
    | .ok id => (reply 200 Task.json (s.getTask id), s)
  | reportStatus =>
    match body StatusReport.decoder r with
    | .error response => (response, s)
    | .ok report =>
      let (answer, s) := s.updateStatus report w.nowSeconds
      (reply 200 Task.json answer, s)
  | run =>
    match runRequest r with
    | .error response => (response, s)
    | .ok request =>
      let (answer, s) := s.runScript w.launch request w.draws w.nowSeconds w.probes
      (reply 201 RunOutcome.json answer, s)
  | command id =>
    match (do .ok (← taskId id, ← commandRequest r)) with
    | .error response => (response, s)
    | .ok (id, request) =>
      let (answer, s) := s.sendCommand w.exchange id request.cmd request.value
      (reply 200 Command.json answer, s)
  | package id =>
    match (do .ok (← taskId id, ← body PackageRequest.decoder r)) with
    | .error response => (response, s)
    | .ok (id, request) =>
      let (answer, s) := s.startPackage w.runPackage id request.name
      (reply 200 (fun port => .object [("name", .string request.name), ("port", .int port.toNat)]) answer, s)

end WebRoute

namespace WebSettings

open Http (Request Response)

variable {τ : Type}

/-- Answers a request on the route of its path, if there is one that answers to its method. -/
def dispatch (c : WebSettings) (w : WebSurroundings τ) (r : Request) (s : Supervisor τ) : Response × Supervisor τ :=
  match WebRoute.ofPath? c (Http.pathOf r.target) with
  | none => (.bare 404, s)
  | some route =>
    if r.method = route.method then route.serve w r s
    else if r.method = "HEAD" ∧ route.method = "GET" then
      let (response, s) := route.serve w r s
      (response.headOnly, s)
    else (.bare 405, s)

/-- Answers a request. Where browsers of other origins are let in, their question whether they may ask is answered for
every path. -/
def handle (c : WebSettings) (w : WebSurroundings τ) (r : Request) (s : Supervisor τ) : Response × Supervisor τ :=
  if c.enableCors then
    if r.method = "OPTIONS" then ({ Response.bare 200 with openToAll := true }, s)
    else
      let (response, s) := c.dispatch w r s
      ({ response with openToAll := true }, s)
  else c.dispatch w r s

end WebSettings

end ScriptRunner
