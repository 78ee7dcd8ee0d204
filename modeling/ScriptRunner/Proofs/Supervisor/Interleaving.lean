import ScriptRunner.Proofs.Supervisor.Records
import ScriptRunner.Supervisor.Basic

/-!
# Interleaved calls of the supervisor

Calls of the supervisor run side by side; only their critical sections and the steps between them exclude each other. A
`System` is a supervisor with the calls that are under way, each in front of its next step. An `Action` starts a call or
lets one make its next step, so every interleaving is a list of actions, and what holds after every list holds for every
interleaving (`System.run`). What an action begins is said once, for all kinds of activities (`activities_of_step`).

The functions that run a call to its end are such lists: `updateStatus_eq_run`, `childExited_eq_run` and
`runScript_eq_run`.

For the tasks and their ports only some steps count. `step_move` says which: seen through its ledger, a system makes one
of seven moves.
-/

namespace ScriptRunner

/-- A call of the supervisor in front of its next step. -/
inductive Activity where
  /-- A run that holds its ports and is to be prepared. -/
  | preparing (request : RunRequest) (r : Reservation)
  /-- A run with a record whose process is being started. -/
  | launching (l : Supervisor.Launchable)
  /-- A report with the time that it is about, to be applied. -/
  | reporting (report : StatusReport) (time : Int64)
  /-- A report that gave this record, which is to be kept if the task has ended. -/
  | recording (t : Task) (time : Int64)
  /-- A report that gave this record, of which the observers are to be told. -/
  | announcing (t : Task) (time : Int64)

/-- A change among the observers that is not a delivery. -/
inductive Attendance where
  | add (id : String) (now : Int64)
  | remove (id : String)
  | leave (mailbox : Nat)
  | read (mailbox : Nat)
  | shutdown (now : Int64)

def Attendance.apply (b : Broadcaster) : Attendance → Broadcaster
  | add id now => (b.add id now).2
  | remove id => b.remove id
  | leave mailbox => b.abandonMailbox mailbox
  | read mailbox => (b.drain mailbox).2
  | shutdown now => b.shutdown now

/-- What may happen next. Numbers of activities are their places in the list. -/
inductive Action where
  /-- A run is asked for and takes its ports. -/
  | run (request : RunRequest) (draws : List TaskId) (probes : Probe × Probe)
  | report (report : StatusReport) (now : Int64)
  /-- The process of a task has gone away. -/
  | exit (id : TaskId) (code : Option Int32) (now : Int64)
  /-- An activity makes its next step; a launch succeeds. -/
  | proceed (i : Nat) (now : Int64)
  | failLaunch (i : Nat)
  | attend (change : Attendance)
  | command (exchange : Port → Command → Exchange) (id : TaskId) (cmd : String) (value : Json)
  | package (spawn : Spawn → Except FileFault PackageOutput) (id : TaskId) (name : String)

/-- The time that an action reads from the clock for a report. -/
def Action.clock? : Action → Option Int64
  | report _ now | exit _ _ now => some now
  | _ => none

structure System (τ : Type) where
  supervisor : Supervisor τ
  activities : List Activity

namespace System

variable {τ : Type}

def initial (c : SupervisorSettings) (w : Workshop) (store : TraceStore τ) (traces : τ)
    (packages : Option PackageManager) : System τ :=
  ⟨.initial c w store traces packages, []⟩

/-- The system after activity `i` has changed the state of the supervisor and come to its end. -/
def finish (S : System τ) (i : Nat) (state : SupervisorState) : System τ :=
  ⟨{ S.supervisor with state }, S.activities.eraseIdx i⟩

/-- The next step of activity `i`. -/
def proceed (S : System τ) (i : Nat) (now : Int64) : System τ :=
  match S.activities[i]? with
  | none => S
  | some (.preparing request r) =>
    match S.supervisor.workshop.prepare S.supervisor.settings request r with
    | .error _ => S.finish i (S.supervisor.state.release r)
    | .ok (header, program) =>
      ⟨{ S.supervisor with state := S.supervisor.state.register r (.ofHeader header now) },
        S.activities.set i (.launching ⟨r, header, program⟩)⟩
  | some (.launching _) => S.finish i S.supervisor.state
  | some (.reporting report time) =>
    match S.supervisor.state.applyReport report time with
    | .error _ => S.finish i S.supervisor.state
    | .ok (t, state) => ⟨{ S.supervisor with state }, S.activities.set i (.recording t time)⟩
  | some (.recording t time) => ⟨S.supervisor.keepTrace t, S.activities.set i (.announcing t time)⟩
  | some (.announcing t time) => ⟨S.supervisor.announce t time, S.activities.eraseIdx i⟩

/-- One action; one that is not possible changes nothing. -/
def step (S : System τ) : Action → System τ
  | .run request draws probes =>
    match S.supervisor.state.reserve S.supervisor.settings draws probes with
    | (.error _, state) => ⟨{ S.supervisor with state }, S.activities⟩
    | (.ok r, state) => ⟨{ S.supervisor with state }, .preparing request r :: S.activities⟩
  | .report report now => { S with activities := .reporting report (report.effectiveTime now) :: S.activities }
  | .exit id code now =>
    if S.supervisor.state.isLive id then
      let report := Supervisor.exitReport id code now
      { S with activities := .reporting report (report.effectiveTime now) :: S.activities }
    else S
  | .proceed i now => S.proceed i now
  | .failLaunch i =>
    match S.activities[i]? with
    | some (.launching l) => S.finish i (S.supervisor.state.abandon l.reservation)
    | _ => S
  | .attend change => { S with supervisor := { S.supervisor with observers := change.apply S.supervisor.observers } }
  | .command exchange id cmd value => { S with supervisor := (S.supervisor.sendCommand exchange id cmd value).2 }
  | .package spawn id name => { S with supervisor := (S.supervisor.startPackage spawn id name).2 }

def run (S : System τ) (actions : List Action) : System τ := actions.foldl step S

@[simp] theorem run_nil (S : System τ) : S.run [] = S := rfl

@[simp] theorem run_cons (S : System τ) (a : Action) (as : List Action) : S.run (a :: as) = (S.step a).run as := rfl

theorem run_append (S : System τ) (as bs : List Action) : S.run (as ++ bs) = (S.run as).run bs :=
  List.foldl_append

/-- What every action keeps holds after every run. -/
theorem run_induction {P : System τ → Prop} {actions : List Action} (hstep : ∀ S, ∀ a ∈ actions, P S → P (S.step a))
    {S : System τ} (h : P S) : P (S.run actions) := by
  induction actions generalizing S with
  | nil => exact h
  | cons a as ih =>
    exact ih (fun S b hb => hstep S b (List.mem_cons_of_mem a hb)) (hstep S a List.mem_cons_self h)

/-! ## Activities that an action begins -/

section Begins

variable {S : System τ} {a : Action} {b : Activity}

/-- The action starts the activity or brings it in front of this step. -/
inductive Begins (S : System τ) : Action → Activity → Prop
  | preparing {request draws probes r state}
      (h : S.supervisor.state.reserve S.supervisor.settings draws probes = (.ok r, state)) :
      Begins S (.run request draws probes) (.preparing request r)
  | launching {i now request r header program} (hi : S.activities[i]? = some (.preparing request r))
      (h : S.supervisor.workshop.prepare S.supervisor.settings request r = .ok (header, program)) :
      Begins S (.proceed i now) (.launching ⟨r, header, program⟩)
  | reporting {report now} : Begins S (.report report now) (.reporting report (report.effectiveTime now))
  | exiting {id code now} (h : S.supervisor.state.isLive id = true) : Begins S (.exit id code now)
      (.reporting (Supervisor.exitReport id code now) ((Supervisor.exitReport id code now).effectiveTime now))
  | recording {i now report time t state} (hi : S.activities[i]? = some (.reporting report time))
      (h : S.supervisor.state.applyReport report time = .ok (t, state)) : Begins S (.proceed i now) (.recording t time)
  | announcing {i now t time} (hi : S.activities[i]? = some (.recording t time)) :
      Begins S (.proceed i now) (.announcing t time)

/-- **An activity after an action was there before, or was begun by the action.** -/
theorem activities_of_step (h : b ∈ (S.step a).activities) : b ∈ S.activities ∨ S.Begins a b := by
  have erased : ∀ {i}, b ∈ S.activities.eraseIdx i → b ∈ S.activities ∨ S.Begins a b :=
    fun hm => .inl (List.mem_of_mem_eraseIdx hm)
  have begun : ∀ {c}, S.Begins a c → b ∈ S.activities ∨ b = c → b ∈ S.activities ∨ S.Begins a b := by
    rintro c hc (hb | rfl)
    · exact .inl hb
    · exact .inr hc
  have replaced : ∀ {i c}, b ∈ S.activities.set i c → S.Begins a c → b ∈ S.activities ∨ S.Begins a b :=
    fun hm hc => begun hc (List.mem_or_eq_of_mem_set hm)
  have added : ∀ {c}, b ∈ c :: S.activities → S.Begins a c → b ∈ S.activities ∨ S.Begins a b :=
    fun hm hc => begun hc (List.mem_cons.1 hm).symm
  cases a with
  | run request draws probes =>
    simp only [step] at h
    split at h
    · exact .inl h
    · rename_i hr
      exact added h (.preparing hr)
  | report report now => exact added h .reporting
  | exit id code now =>
    simp only [step] at h
    split at h
    · rename_i hlive
      exact added h (.exiting hlive)
    · exact .inl h
  | proceed i now =>
    simp only [step, proceed] at h
    split at h
    · exact .inl h
    · rename_i hi
      split at h
      · exact erased h
      · rename_i hp
        exact replaced h (.launching hi hp)
    · exact erased h
    · rename_i hi
      split at h
      · exact erased h
      · rename_i hr
        exact replaced h (.recording hi hr)
    · rename_i hi
      exact replaced h (.announcing hi)
    · exact erased h
  | failLaunch i =>
    simp only [step] at h
    split at h
    · exact erased h
    · exact .inl h
  | attend change => exact .inl h
  | command exchange id cmd value => exact .inl h
  | package spawn id name => exact .inl h

end Begins

/-! ## Calls that run to their end -/

variable (s : Supervisor τ) (as : List Activity)

/-- A report that is applied, kept and announced at once. -/
theorem updateStatus_eq_run (report : StatusReport) (now : Int64) :
    ∃ actions, (⟨s, as⟩ : System τ).run actions = ⟨(s.updateStatus report now).2, as⟩ := by
  cases h : s.state.applyReport report (report.effectiveTime now) with
  | error e =>
    refine ⟨[.report report now, .proceed 0 now], ?_⟩
    simp [step, proceed, finish, Supervisor.updateStatus, h]
  | ok u =>
    refine ⟨[.report report now, .proceed 0 now, .proceed 0 now, .proceed 0 now], ?_⟩
    simp [step, proceed, Supervisor.updateStatus, h]

theorem childExited_eq_run (id : TaskId) (code : Option Int32) (now : Int64) :
    ∃ actions, (⟨s, as⟩ : System τ).run actions = ⟨s.childExited id code now, as⟩ := by
  unfold Supervisor.childExited
  by_cases h : s.state.isLive id = true
  · rw [if_pos h]
    exact updateStatus_eq_run s as (Supervisor.exitReport id code now) now
  · rw [if_neg h]
    exact ⟨[], rfl⟩

theorem beginRun_eq_run (request : RunRequest) (draws : List TaskId) (now : Int64) (probes : Probe × Probe) :
    ∃ actions, (⟨s, as⟩ : System τ).run actions =
      ⟨(s.beginRun request draws now probes).2,
        ((s.beginRun request draws now probes).1.toOption.map Activity.launching).toList ++ as⟩ := by
  rcases h : s.state.reserve s.settings draws probes with ⟨e | r, state⟩
  · refine ⟨[.run request draws probes], ?_⟩
    simp [step, Supervisor.beginRun, h, Except.toOption]
  · refine ⟨[.run request draws probes, .proceed 0 now], ?_⟩
    cases hp : s.workshop.prepare s.settings request r with
    | error e => simp [step, proceed, finish, Supervisor.beginRun, h, hp, Except.toOption]
    | ok v => simp [step, proceed, Supervisor.beginRun, h, hp, Except.toOption]

/-- A run is a list of actions if what happens during its launch is one. -/
theorem runScript_eq_run (launch : Supervisor.Launch τ)
    (hlaunch : ∀ header program s as, ∃ actions, (⟨s, as⟩ : System τ).run actions = ⟨(launch header program s).2, as⟩)
    (request : RunRequest) (draws : List TaskId) (now : Int64) (probes : Probe × Probe) :
    ∃ actions, (⟨s, as⟩ : System τ).run actions = ⟨(s.runScript launch request draws now probes).2, as⟩ := by
  obtain ⟨begun, hbegun⟩ := beginRun_eq_run s as request draws now probes
  unfold Supervisor.runScript
  generalize s.beginRun request draws now probes = b at hbegun
  obtain ⟨answer, s₁⟩ := b
  cases answer with
  | error e => exact ⟨begun, by simpa [Except.toOption] using hbegun⟩
  | ok l =>
    obtain ⟨during, hduring⟩ := hlaunch l.header l.program s₁ (.launching l :: as)
    have hrun : (⟨s, as⟩ : System τ).run (begun ++ during) =
        ⟨(launch l.header l.program s₁).2, .launching l :: as⟩ := by
      rw [run_append, hbegun]
      simpa [Except.toOption] using hduring
    cases hl : (launch l.header l.program s₁).1 with
    | ok _ =>
      refine ⟨begun ++ during ++ [.proceed 0 now], ?_⟩
      rw [run_append, hrun]
      simp [step, proceed, finish, Supervisor.finishRun, hl]
    | error e =>
      refine ⟨begun ++ during ++ [.failLaunch 0], ?_⟩
      rw [run_append, hrun]
      simp [step, finish, Supervisor.finishRun, hl]

end System

end ScriptRunner
