import ScriptRunner.Proofs.Supervisor.Effects

/-!
# A trace store that fails changes nothing else

What the trace store answers and how it changes is never looked at. So a system does whatever it does without a store
(`System.untraced`): every action leads to the same records, ports, observers and calls under way, tells the world the
same (`history_untraced`) and gives its caller the same answer (`answer?_untraced`). Together with the effects of reports
this says what a run does to the world, whether or not the store keeps what it is given
(`effects_happen_once`).
-/

namespace ScriptRunner

/-- What the caller of an action is told. -/
inductive Answer where
  | run (outcome : Except SupervisorError RunOutcome)
  | report (outcome : Except SupervisorError Task)
  | command (outcome : Except SupervisorError Command)
  | package (outcome : Except SupervisorError Port)

namespace Supervisor

variable {τ : Type}

/-- The supervisor with a trace store that keeps nothing and never fails. -/
def untraced (s : Supervisor τ) : Supervisor Unit where
  settings := s.settings
  workshop := s.workshop
  store := ⟨fun _ _ => (.ok (), ())⟩
  state := s.state
  traces := ()
  observers := s.observers
  packages := s.packages
  lastExchange := s.lastExchange

theorem updateStatus_untraced (s : Supervisor τ) (report : StatusReport) (now : Int64) :
    s.untraced.updateStatus report now =
      ((s.updateStatus report now).1, (s.updateStatus report now).2.untraced) := by
  have hstate : s.untraced.state = s.state := rfl
  simp only [updateStatus, hstate]
  cases s.state.applyReport report (report.effectiveTime now) with
  | error e => rfl
  | ok v => simp only [keepTrace, announce, untraced]

theorem sendCommand_untraced (s : Supervisor τ) (exchange : Port → Command → Exchange) (id : TaskId) (cmd : String)
    (value : Json) : s.untraced.sendCommand exchange id cmd value =
      ((s.sendCommand exchange id cmd value).1, (s.sendCommand exchange id cmd value).2.untraced) := by
  have htask : s.untraced.runningTask id = s.runningTask id := rfl
  unfold sendCommand
  rw [htask]
  cases s.runningTask id <;> rfl

theorem startPackage_untraced (s : Supervisor τ) (spawn : Spawn → Except FileFault PackageOutput) (id : TaskId)
    (name : String) : s.untraced.startPackage spawn id name =
      ((s.startPackage spawn id name).1, (s.startPackage spawn id name).2.untraced) := by
  have hpackages : s.untraced.packages = s.packages := rfl
  have htask : s.untraced.runningTask id = s.runningTask id := rfl
  unfold startPackage
  rw [hpackages, htask]
  cases s.packages with
  | none => rfl
  | some packages => cases s.runningTask id <;> rfl

end Supervisor

namespace System

variable {τ τ' : Type}

/-- The system without its trace store. -/
def untraced (S : System τ) : System Unit := ⟨S.supervisor.untraced, S.activities⟩

theorem proceed_untraced (S : System τ) (i : Nat) (now : Int64) :
    S.untraced.proceed i now = (S.proceed i now).untraced := by
  have hactivities : S.untraced.activities = S.activities := rfl
  have hprepare : S.untraced.supervisor.workshop.prepare S.untraced.supervisor.settings =
      S.supervisor.workshop.prepare S.supervisor.settings := rfl
  have hstate : S.untraced.supervisor.state = S.supervisor.state := rfl
  unfold proceed
  rw [hactivities, hprepare, hstate]
  cases S.activities[i]? with
  | none => rfl
  | some b =>
    cases b with
    | preparing request r =>
      cases h : S.supervisor.workshop.prepare S.supervisor.settings request r <;> simp only [h] <;> rfl
    | launching l => rfl
    | reporting report time =>
      cases h : S.supervisor.state.applyReport report time <;> simp only [h] <;> rfl
    | recording t time => rfl
    | announcing t time => rfl

/-- **An action does the same without a trace store.** -/
theorem step_untraced (S : System τ) (a : Action) : S.untraced.step a = (S.step a).untraced := by
  cases a with
  | run request draws probes =>
    have hreserve : S.untraced.supervisor.state.reserve S.untraced.supervisor.settings draws probes =
        S.supervisor.state.reserve S.supervisor.settings draws probes := rfl
    simp only [step]
    rw [hreserve]
    rcases S.supervisor.state.reserve S.supervisor.settings draws probes with ⟨_ | _, _⟩ <;> rfl
  | report report now => rfl
  | exit id code now =>
    have hlive : S.untraced.supervisor.state.isLive id = S.supervisor.state.isLive id := rfl
    simp only [step]
    rw [hlive]
    split <;> rfl
  | proceed i now => exact proceed_untraced S i now
  | failLaunch i =>
    have hactivities : S.untraced.activities = S.activities := rfl
    simp only [step]
    rw [hactivities]
    split <;> rfl
  | attend change => rfl
  | command exchange id cmd value =>
    simp only [step, untraced, Supervisor.sendCommand_untraced]
  | package spawn id name =>
    simp only [step, untraced, Supervisor.startPackage_untraced]

theorem brought?_untraced (S : System τ) (a : Action) : S.untraced.brought? a = S.brought? a := by
  cases a <;> rfl

theorem perform_untraced (S : System τ) (a : Action) : S.untraced.perform a = (S.perform a).untraced := by
  unfold perform
  rw [brought?_untraced]
  cases S.brought? a with
  | none => exact step_untraced S a
  | some b => simp only [untraced, Supervisor.updateStatus_untraced]

theorem performAll_untraced (S : System τ) (actions : List Action) :
    S.untraced.performAll actions = (S.performAll actions).untraced := by
  induction actions generalizing S with
  | nil => rfl
  | cons a as ih => rw [performAll_cons, performAll_cons, perform_untraced, ih]

theorem effects_untraced (S : System τ) (a : Action) : S.untraced.effects a = S.effects a := by
  unfold effects
  rw [brought?_untraced]
  cases S.brought? a with
  | none => rfl
  | some b => simp only [untraced, Supervisor.updateStatus_untraced]

theorem history_untraced (S : System τ) (actions : List Action) : S.untraced.history actions = S.history actions := by
  induction actions generalizing S with
  | nil => rfl
  | cons a as ih => rw [history, history, effects_untraced, perform_untraced, ih]

/-- What the caller of an action is told, if it is told anything; the launcher says `refusal` of a process that it cannot
start. -/
def answer? (S : System τ) (refusal : SupervisorError) : Action → Option Answer
  | .report report now => some (.report (S.supervisor.updateStatus report now).1)
  | .command exchange id cmd value => some (.command (S.supervisor.sendCommand exchange id cmd value).1)
  | .package spawn id name => some (.package (S.supervisor.startPackage spawn id name).1)
  | a => (S.runAnswer? refusal a).map .run

theorem answer?_untraced (S : System τ) (refusal : SupervisorError) (a : Action) :
    S.untraced.answer? refusal a = S.answer? refusal a := by
  have hrun : S.untraced.runAnswer? refusal a = S.runAnswer? refusal a := by cases a <;> rfl
  cases a with
  | report report now => simp only [answer?, untraced, Supervisor.updateStatus_untraced]
  | command exchange id cmd value => simp only [answer?, untraced, Supervisor.sendCommand_untraced]
  | package spawn id name => simp only [answer?, untraced, Supervisor.startPackage_untraced]
  | run | exit | proceed | failLaunch | attend => exact congrArg (Option.map Answer.run) hrun

/-- Two systems that differ in their trace stores only cannot be told apart by their callers, their observers or their
records. -/
theorem agree_of_untraced {S : System τ} {S' : System τ'} (h : S.untraced = S'.untraced) (actions : List Action) :
    let T := S.performAll actions
    let T' := S'.performAll actions
    T.supervisor.state = T'.supervisor.state ∧ T.supervisor.observers = T'.supervisor.observers ∧
      T.activities = T'.activities ∧ S.history actions = S'.history actions ∧
      ∀ refusal a, T.answer? refusal a = T'.answer? refusal a := by
  intro T T'
  have hT : T.untraced = T'.untraced := by
    rw [← performAll_untraced, ← performAll_untraced, h]
  have hsupervisor := congrArg System.supervisor hT
  refine ⟨congrArg Supervisor.state hsupervisor, congrArg Supervisor.observers hsupervisor,
    congrArg System.activities hT, ?_, fun refusal a => ?_⟩
  · rw [← history_untraced S, h, history_untraced S']
  · rw [← answer?_untraced T, hT, answer?_untraced T']

end System

end ScriptRunner
