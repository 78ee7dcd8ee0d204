import ScriptRunner.Channel.Exchange
import ScriptRunner.Supervisor.Observers
import ScriptRunner.Supervisor.Packages
import ScriptRunner.Supervisor.Preparation

/-!
# The supervisor

The supervisor runs scripts, keeps the records of their tasks, tells observers of every change, and passes commands on to
the processes of the runs. The clock, the launching of processes, the exchange with them and the programs of packages
are given to it.
-/

namespace ScriptRunner

/-- A supervisor whose trace store has states of type `τ`. -/
structure Supervisor (τ : Type) where
  settings : SupervisorSettings
  workshop : Workshop
  store : TraceStore τ
  state : SupervisorState
  traces : τ
  observers : Broadcaster
  /-- The packages, where a directory for them is set. -/
  packages : Option PackageManager
  /-- The number of the last exchange with a run. -/
  lastExchange : UInt64

/-- The command that asks a task to end itself. -/
def stopCommand : String := "stop"

namespace Supervisor

variable {τ : Type}

def initial (c : SupervisorSettings) (w : Workshop) (store : TraceStore τ) (traces : τ)
    (packages : Option PackageManager) : Supervisor τ where
  settings := c
  workshop := w
  store := store
  state := .initial c
  traces := traces
  observers := .empty
  packages := packages
  lastExchange := 0

/-! ## Tasks -/

def getTask (s : Supervisor τ) (id : TaskId) : Except SupervisorError Task :=
  match s.state.find? id with
  | some t => .ok t
  | none => .error (.taskNotFound id)

/-- Orders tasks by the time of their start and then by number. -/
def startedBefore (a b : Task) : Bool :=
  decide (a.startedAt < b.startedAt) || (a.startedAt == b.startedAt && decide (a.id ≤ b.id))

/-- All tasks, oldest first. -/
def listTasks (s : Supervisor τ) : List Task := s.state.tasks.mergeSort startedBefore

def portsInUse (s : Supervisor τ) : Nat := s.state.pool.inUse

/-! ## Reports -/

/-- Keeps the record of a task that has ended; a store that fails does not stop the report. -/
def keepTrace (t : Task) (s : Supervisor τ) : Supervisor τ :=
  { s with traces := if t.isTerminal then (s.store.record t s.traces).2 else s.traces }

/-- Tells the observers of the record of a task. -/
def announce (t : Task) (time : Int64) (s : Supervisor τ) : Supervisor τ :=
  { s with observers := (s.observers.publish (.ofTask t time)).2 }

/-- Applies a report, keeps the record of a task that has ended, and tells the observers. -/
def updateStatus (report : StatusReport) (now : Int64) (s : Supervisor τ) :
    Except SupervisorError Task × Supervisor τ :=
  let time := report.effectiveTime now
  match s.state.applyReport report time with
  | .error e => (.error e, s)
  | .ok (t, state) => (.ok t, ({ s with state }.keepTrace t).announce t time)

/-- What the record of a task says whose process went away; a process without an exit code was killed. -/
def exitMessage : Option Int32 → String
  | some code => s!"process exited with code {code.toInt}"
  | none => "process terminated by signal"

/-- The report about a process that went away. -/
def exitReport (id : TaskId) (code : Option Int32) (now : Int64) : StatusReport where
  taskId := id
  status := .crashed
  message := exitMessage code
  time := now

/-- Notes the end of a process; it counts only for a task that has not ended by a report. -/
def childExited (id : TaskId) (code : Option Int32) (now : Int64) (s : Supervisor τ) : Supervisor τ :=
  if s.state.isLive id then (s.updateStatus (exitReport id code now) now).2 else s

/-! ## Runs -/

/-- Starts the process of a run. Reports may reach the supervisor before the launch has come to its end. -/
abbrev Launch (τ : Type) := Header → Bytecode → Supervisor τ → Except SupervisorError Unit × Supervisor τ

/-- A run that has its record and is to be launched. -/
structure Launchable where
  reservation : Reservation
  header : Header
  program : Bytecode

/-- Reserves, prepares and registers a run; one that cannot be prepared leaves nothing behind. -/
def beginRun (request : RunRequest) (draws : List TaskId) (now : Int64) (s : Supervisor τ)
    (probes : Probe × Probe := (.off, .off)) : Except SupervisorError Launchable × Supervisor τ :=
  match s.state.reserve s.settings draws probes with
  | (.error e, state) => (.error e, { s with state })
  | (.ok r, state) =>
    match s.workshop.prepare s.settings request r with
    | .error e => (.error e, { s with state := state.release r })
    | .ok (header, program) =>
      (.ok ⟨r, header, program⟩, { s with state := state.register r (.ofHeader header now) })

/-- Ends the launch of a run; one that failed is taken back. -/
def finishRun (l : Launchable) (launched : Except SupervisorError Unit) (s : Supervisor τ) :
    Except SupervisorError RunOutcome × Supervisor τ :=
  match launched with
  | .ok () => (.ok ⟨l.reservation.taskId, l.reservation.httpPort⟩, s)
  | .error e => (.error e, { s with state := s.state.abandon l.reservation })

/-- Runs a script. -/
def runScript (launch : Launch τ) (request : RunRequest) (draws : List TaskId) (now : Int64) (s : Supervisor τ)
    (probes : Probe × Probe := (.off, .off)) : Except SupervisorError RunOutcome × Supervisor τ :=
  match s.beginRun request draws now probes with
  | (.error e, s) => (.error e, s)
  | (.ok l, s) =>
    let (launched, s) := launch l.header l.program s
    s.finishRun l launched

/-! ## Commands and packages -/

/-- A task that has not ended. -/
def runningTask (s : Supervisor τ) (id : TaskId) : Except SupervisorError Task :=
  match s.state.find? id with
  | none => .error (.taskNotFound id)
  | some t => if t.isTerminal then .error (.taskNotRunning id) else .ok t

/-- Sends a command to the process of a task. -/
def sendCommand (exchange : Port → Command → Exchange) (id : TaskId) (cmd : String) (value : Json) (s : Supervisor τ) :
    Except SupervisorError Command × Supervisor τ :=
  match s.runningTask id with
  | .error e => (.error e, s)
  | .ok t =>
    let unique := s.lastExchange + 1
    let request := Command.request id unique cmd value
    (((exchange t.localPort request).outcome request).mapError .channel, { s with lastExchange := unique })

/-- Asks a task to end itself. -/
def stopTask (exchange : Port → Command → Exchange) (id : TaskId) (s : Supervisor τ) :
    Except SupervisorError Command × Supervisor τ :=
  s.sendCommand exchange id stopCommand .null

/-- Starts a package for a task and gives its port. -/
def startPackage (run : Spawn → Except FileFault PackageOutput) (id : TaskId) (name : String) (s : Supervisor τ) :
    Except SupervisorError Port × Supervisor τ :=
  match s.packages with
  | none => (.error .packagesDisabled, s)
  | some packages =>
    match s.runningTask id with
    | .error e => (.error e, s)
    | .ok t =>
      let (answer, packages) := packages.start run name id t.localPort
      (answer.mapError .channel, { s with packages := some packages })

/-- Announces the end to every observer. -/
def shutdown (now : Int64) (s : Supervisor τ) : Supervisor τ := { s with observers := s.observers.shutdown now }

end Supervisor

end ScriptRunner
