import ScriptRunner.Config.Settings
import ScriptRunner.Supervisor.Failure
import ScriptRunner.Supervisor.Ports
import ScriptRunner.Task.Record

/-!
# The tasks of the supervisor and their ports

The state is the pool of ports, the records of all tasks, and the runs that hold ports but have no record yet. Each
function here is one step that nothing can interrupt: a run is reserved, then registered or given up; a launch that fails
takes its record back; a report changes the record of a task and, if the task ends with it, frees the ports.
-/

namespace ScriptRunner

/-- The settings that the supervisor goes by. -/
structure SupervisorSettings where
  basePort : Port
  portPoolSize : UInt64
  /-- The number of live tasks is limited. -/
  restricted : Bool
  maxTasks : UInt64
  defaultLang : String
  /-- The port to which runs report. -/
  serverPort : Port
  logLevel : Option String
  deriving DecidableEq, Repr

def SupervisorSettings.ofSettings (s : Settings) : SupervisorSettings where
  basePort := s.execution.basePort
  portPoolSize := s.execution.portPoolSize
  restricted := s.execution.restricted
  maxTasks := s.execution.maxTasks
  defaultLang := s.execution.defaultLang
  serverPort := s.server.port
  logLevel := some s.logging.level.name

/-- What a run holds before it has a record. -/
structure Reservation where
  taskId : TaskId
  httpPort : Port
  localPort : Port
  deriving DecidableEq, Repr, Inhabited

structure SupervisorState where
  pool : PortPool
  tasks : List Task
  /-- The runs that hold ports and have no record yet. -/
  pending : List TaskId
  deriving DecidableEq

namespace SupervisorState

def initial (c : SupervisorSettings) : SupervisorState where
  pool := .ofSize c.basePort c.portPoolSize.toNat
  tasks := []
  pending := []

/-- The record of a task. -/
def find? (s : SupervisorState) (id : TaskId) : Option Task := s.tasks.find? fun t => t.id == id

/-- The task has a record and has not ended. -/
def isLive (s : SupervisorState) (id : TaskId) : Bool := (s.find? id).any fun t => !t.isTerminal

/-- No task and no pending run has the number. -/
def isFresh (s : SupervisorState) (id : TaskId) : Bool :=
  (s.tasks.all fun t => t.id != id) && (s.pending.all fun p => p != id)

/-- The tasks that have not ended and the runs without a record. -/
def liveCount (s : SupervisorState) : Nat := s.tasks.countP (fun t => !t.isTerminal) + s.pending.length

/-- The first of the drawn numbers that is not in use. -/
def freshId? (s : SupervisorState) (draws : List TaskId) : Option TaskId := draws.find? s.isFresh

/-- Takes two ports and a number for a new run; the ports are probed one after the other. If there is no second port, the
first one is freed again. -/
def reserve (c : SupervisorSettings) (draws : List TaskId) (s : SupervisorState)
    (probes : Probe × Probe := (.off, .off)) : Except SupervisorError Reservation × SupervisorState :=
  if c.restricted && c.maxTasks.toNat ≤ s.liveCount then (.error (.limitExceeded c.maxTasks), s)
  else
    match s.pool.acquire? probes.1 with
    | none => (.error .poolExhausted, s)
    | some (httpPort, pool) =>
      match pool.acquire? probes.2 with
      | none => (.error .poolExhausted, { s with pool := pool.release httpPort })
      | some (localPort, pool) =>
        match s.freshId? draws with
        | none => (.error .noFreshId, s)
        | some id => (.ok ⟨id, httpPort, localPort⟩, { s with pool, pending := id :: s.pending })

/-- Frees both ports of a run that is given up. -/
def release (r : Reservation) (s : SupervisorState) : SupervisorState where
  pool := (s.pool.release r.httpPort).release r.localPort
  tasks := s.tasks
  pending := s.pending.filter fun id => id != r.taskId

/-- Puts a record in place of one with the same number. -/
def putTask (t : Task) (tasks : List Task) : List Task := tasks.filter (fun u => u.id != t.id) ++ [t]

/-- Gives a pending run its record. -/
def register (r : Reservation) (t : Task) (s : SupervisorState) : SupervisorState where
  pool := s.pool
  tasks := putTask t s.tasks
  pending := s.pending.filter fun id => id != r.taskId

/-- Takes the record of a run back whose launch failed. A task that has ended meanwhile has freed its ports and keeps its
record. -/
def abandon (r : Reservation) (s : SupervisorState) : SupervisorState :=
  if s.isLive r.taskId then { s with tasks := s.tasks.filter fun t => t.id != r.taskId }.release r else s

/-- The record after a report about the given time. -/
def amend (t : Task) (report : StatusReport) (time : Int64) : Task :=
  { t with
    status := report.status
    message := report.message
    finishedAt := if report.status.isTerminal then time else t.finishedAt }

/-- Frees the ports of a task that has ended. -/
def settlePorts (t : Task) (pool : PortPool) : PortPool :=
  if t.isTerminal then (pool.release t.httpPort).release t.localPort else pool

/-- Applies a report about the given time. -/
def applyReport (report : StatusReport) (time : Int64) (s : SupervisorState) :
    Except SupervisorError (Task × SupervisorState) :=
  match s.find? report.taskId with
  | none => .error (.taskNotFound report.taskId)
  | some t =>
    if t.status.canMoveTo report.status then
      let t := amend t report time
      .ok (t,
        { s with
          pool := settlePorts t s.pool
          tasks := s.tasks.map fun u => if u.id == t.id then t else u })
    else .error (.invalidTransition t.id t.status report.status)

end SupervisorState

end ScriptRunner
