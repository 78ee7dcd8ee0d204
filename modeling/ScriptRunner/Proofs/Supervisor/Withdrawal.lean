import ScriptRunner.Proofs.Supervisor.Answers
import ScriptRunner.Proofs.Supervisor.Lifecycle

/-!
# A run that fails leaves no trace

Each way of giving a run up undoes what the run had done: returning a port undoes taking it (`PortPool.release_acquire?`),
giving up undoes reserving (`SupervisorState.release_reserve`), and taking back undoes registering
(`SupervisorState.abandon_register`). So a run that nothing interrupts and that fails leaves the supervisor as it was
(`Supervisor.runScript_of_error`). Among other calls a run that fails takes away what it had and nothing else
(`SupervisorState.Without`), unless its task has ended by then.
-/

namespace ScriptRunner

/-! ## Ports -/

namespace PortPool

variable {p : PortPool}

@[simp] theorem slotOf?_release (port port' : Port) : (p.release port).slotOf? port' = p.slotOf? port' := by
  unfold release
  split <;> simp

/-- It does not matter which of two ports is returned first. -/
theorem release_comm (port port' : Port) : (p.release port).release port' = (p.release port').release port := by
  cases h : p.slotOf? port with
  | none => rw [release_of_foreign h, release_of_foreign (p := p.release port') (by rw [slotOf?_release, h])]
  | some i =>
    cases h' : p.slotOf? port' with
    | none => rw [release_of_foreign h', release_of_foreign (p := p.release port) (by rw [slotOf?_release, h'])]
    | some j =>
      rw [release_of_slotOf? (p := p.release port) (i := j) (by rw [slotOf?_release, h']),
        release_of_slotOf? (p := p.release port') (i := i) (by rw [slotOf?_release, h]), release_of_slotOf? h,
        release_of_slotOf? h']
      refine eq_of_slots rfl ?_
      show (p.slots.set i false).set j false = (p.slots.set j false).set i false
      by_cases hij : i = j
      · rw [hij]
      · exact List.set_comm _ _ hij

end PortPool

/-! ## Records and reservations -/

namespace SupervisorState

variable {c : SupervisorSettings} {s s' : SupervisorState} {r : Reservation} {draws : List TaskId}
  {probes : Probe × Probe}

theorem filter_ne_eq_self {α : Type} [DecidableEq α] {xs : List α} {a : α} (h : a ∉ xs) :
    xs.filter (fun x => x != a) = xs :=
  List.filter_eq_self.2 fun x hx => by simpa using fun he : x = a => h (he ▸ hx)

/-- A number without a record: leaving its record out changes nothing. -/
theorem filter_tasks_eq_self {id : TaskId} (h : s.find? id = none) : (s.tasks.filter fun t => t.id != id) = s.tasks :=
  List.filter_eq_self.2 fun t ht => by simpa using find?_eq_none_iff.1 h t ht

/-- Giving up undoes reserving. -/
theorem release_reserve (h : s.reserve c draws probes = (.ok r, s')) : s'.release r = s := by
  obtain ⟨-, ⟨q, hq, hq'⟩, hfresh, htasks, hpending⟩ := reserve_ok h
  have hnew : r.taskId ∉ s.pending := (isFresh_eq_true_iff.1 hfresh).2
  have hpool : (s'.pool.release r.httpPort).release r.localPort = s.pool := by
    rw [PortPool.release_comm, PortPool.release_acquire? hq', PortPool.release_acquire? hq]
  have hpend : s'.pending.filter (fun id => id != r.taskId) = s.pending := by
    rw [hpending, List.filter_cons_of_neg (by simp), filter_ne_eq_self hnew]
  unfold release
  rw [hpool, htasks, hpend]

/-- Taking back undoes registering and reserving. -/
theorem abandon_register (h : s.reserve c draws probes = (.ok r, s')) {t : Task} (hid : t.id = r.taskId)
    (hlive : t.isTerminal = false) : (s'.register r t).abandon r = s := by
  obtain ⟨-, -, hfresh, htasks, -⟩ := reserve_ok h
  have hnone : s.find? r.taskId = none := (isFresh_eq_true_iff.1 hfresh).1
  have hnone' : s'.find? t.id = none := by
    unfold find? at hnone ⊢
    rw [htasks, hid, hnone]
  have hfound : (s'.register r t).find? r.taskId = some t := by rw [find?_register, if_pos hid]
  have hislive : (s'.register r t).isLive r.taskId = true := isLive_eq_true_iff.2 ⟨t, hfound, hlive⟩
  have hrecords : ((s'.register r t).tasks.filter fun u => u.id != r.taskId) = s'.tasks := by
    rw [tasks_register r hnone', List.filter_append, List.filter_cons_of_neg (by simp [hid]),
      filter_tasks_eq_self (hid ▸ hnone')]
    simp
  unfold abandon
  rw [if_pos hislive, hrecords]
  -- the record is gone again, and a second look through the pending runs finds nothing more
  refine Eq.trans ?_ (release_reserve h)
  simp [release, register, List.filter_filter]

/-- The state `s'` is `s` without a run: without its record, its reservation and its ports. -/
structure Without (s : SupervisorState) (r : Reservation) (s' : SupervisorState) : Prop where
  tasks : s'.tasks = s.tasks.filter fun t => t.id != r.taskId
  pending : s'.pending = s.pending.filter fun id => id != r.taskId
  isTaken_iff : ∀ port, s'.pool.isTaken port = true ↔
    s.pool.isTaken port = true ∧ port ≠ r.httpPort ∧ port ≠ r.localPort

theorem isTaken_release_both (p : PortPool) (a b port : Port) :
    ((p.release a).release b).isTaken port = true ↔ p.isTaken port = true ∧ port ≠ a ∧ port ≠ b := by
  rw [PortPool.isTaken_release, PortPool.isTaken_release, Bool.and_eq_true, Bool.and_eq_true, bne_iff_ne, bne_iff_ne]
  exact ⟨fun ⟨hb, ha, h⟩ => ⟨h, ha, hb⟩, fun ⟨h, ha, hb⟩ => ⟨hb, ha, h⟩⟩

theorem without_release (h : s.find? r.taskId = none) : s.Without r (s.release r) where
  tasks := (filter_tasks_eq_self h).symm
  pending := rfl
  isTaken_iff := isTaken_release_both s.pool r.httpPort r.localPort

theorem without_abandon (h : s.isLive r.taskId = true) : s.Without r (s.abandon r) where
  tasks := by simp [abandon, h, release]
  pending := by simp [abandon, h, release]
  isTaken_iff := by
    intro port
    unfold abandon
    rw [if_pos h]
    exact isTaken_release_both s.pool r.httpPort r.localPort port

/-- A task that has ended keeps its record, and its ports are no longer its own to return. -/
theorem abandon_of_ended {t : Task} (h : s.find? r.taskId = some t) (ht : t.isTerminal = true) : s.abandon r = s := by
  simp [abandon, isLive, h, ht]

end SupervisorState

/-! ## A run without interruption -/

namespace Supervisor

variable {τ : Type} {s : Supervisor τ} {launch : Launch τ} {request : RunRequest} {draws : List TaskId} {now : Int64}
  {probes : Probe × Probe} {e : SupervisorError}

/-- A run that fails leaves the supervisor as it was, if nothing else came in during its launch. -/
theorem runScript_of_error (hlaunch : ∀ header program s e, (launch header program s).1 = .error e →
      (launch header program s).2 = s) (h : (s.runScript launch request draws now probes).1 = .error e) :
    (s.runScript launch request draws now probes).2 = s := by
  rcases runScript_error h with ⟨-, hs⟩ | ⟨r, state, hr, ⟨-, hs⟩ | ⟨header, program, hp, hl, hs⟩⟩
  · exact hs
  · rw [hs, SupervisorState.release_reserve hr]
  · have hquiet := hlaunch _ _ _ _ hl
    have hundone : (state.register r (.ofHeader header now)).abandon r = s.state :=
      SupervisorState.abandon_register hr (Workshop.prepare_ok hp).1 rfl
    rw [hs, hquiet]
    simp only [hundone]

end Supervisor

/-! ## A run among other calls -/

namespace System

variable {τ : Type} {S : System τ} {i : Nat} {r : Reservation}

/-- A run is gone: what it had is nobody's, and nothing else of the supervisor has changed. -/
structure Withdrawn (S : System τ) (r : Reservation) (S' : System τ) : Prop where
  state : S.supervisor.state.Without r S'.supervisor.state
  frame : S'.supervisor = { S.supervisor with state := S'.supervisor.state }
  owners : S.ledger.owners.Perm (r :: S'.ledger.owners)

/-- What becomes of a run that is refused. -/
inductive Cleared (S : System τ) : Action → Prop
  /-- It reserved nothing. -/
  | unreserved {request draws probes} (h : S.step (.run request draws probes) = S) :
      Cleared S (.run request draws probes)
  /-- It could not be prepared and gives up what it had reserved. -/
  | unprepared {i request r now} (hi : S.activities[i]? = some (.preparing request r))
      (h : S.Withdrawn r (S.step (.proceed i now))) : Cleared S (.proceed i now)
  /-- It could not be launched and its task is live: its record is taken back. -/
  | unlaunched {i l} (hi : S.activities[i]? = some (.launching l))
      (hlive : S.supervisor.state.isLive l.reservation.taskId = true)
      (h : S.Withdrawn l.reservation (S.step (.failLaunch i))) : Cleared S (.failLaunch i)
  /-- It could not be launched and its task has ended meanwhile: its record stays for good, and no port is its own. -/
  | ended {i l t} (hi : S.activities[i]? = some (.launching l))
      (ht : S.supervisor.state.find? l.reservation.taskId = some t) (hend : t.isTerminal = true)
      (h : (S.step (.failLaunch i)).supervisor = S.supervisor)
      (hstays : ∀ after, ((S.step (.failLaunch i)).run after).supervisor.state.find? l.reservation.taskId = some t)
      (howners : ∀ o ∈ (S.step (.failLaunch i)).ledger.owners, o.taskId ≠ l.reservation.taskId) :
      Cleared S (.failLaunch i)

theorem withdrawn_of_unprepared (hsound : S.ledger.Sound S.supervisor.settings) {request : RunRequest} {now : Int64}
    {e : SupervisorError} (hi : S.activities[i]? = some (.preparing request r))
    (h : S.supervisor.workshop.prepare S.supervisor.settings request r = .error e) :
    S.Withdrawn r (S.step (.proceed i now)) := by
  have hstep : S.step (.proceed i now) = S.finish i (S.supervisor.state.release r) := by simp [step, proceed, hi, h]
  have hr : r ∈ S.ledger.preparing := List.mem_filterMap.2 ⟨_, List.mem_of_getElem? hi, rfl⟩
  have hp : S.ledger.preparing.Perm (r :: (S.finish i (S.supervisor.state.release r)).ledger.preparing) :=
    perm_eraseIdx Activity.reserved? hi
  rw [hstep]
  exact ⟨SupervisorState.without_release (hsound.find?_eq_none hr), rfl, (hp.append_left _).trans List.perm_middle⟩

theorem withdrawn_of_unlaunched (hsound : S.ledger.Sound S.supervisor.settings) {l : Supervisor.Launchable}
    (hi : S.activities[i]? = some (.launching l)) (hlive : S.supervisor.state.isLive l.reservation.taskId = true) :
    S.Withdrawn l.reservation (S.step (.failLaunch i)) := by
  have hstep : S.step (.failLaunch i) = S.finish i (S.supervisor.state.abandon l.reservation) := by simp [step, hi]
  have hwithout := SupervisorState.without_abandon hlive
  obtain ⟨t, ht, hend⟩ := SupervisorState.isLive_eq_true_iff.1 hlive
  have hr : l.reservation ∈ S.ledger.launching := List.mem_filterMap.2 ⟨_, List.mem_of_getElem? hi, rfl⟩
  have hold : t.holding = l.reservation := hsound.holding_of_find? hr ht
  have hid : t.id = l.reservation.taskId := (SupervisorState.find?_mem ht).2
  obtain ⟨xs, ys, hxs, hne⟩ := SupervisorState.tasks_eq_of_find? hsound.nodup_tasks ht
  -- the record of the run is the only one that is left out
  have hrest : (S.supervisor.state.abandon l.reservation).tasks = xs ++ ys := by
    have hkeep : (xs ++ ys).filter (fun u => u.id != t.id) = xs ++ ys :=
      List.filter_eq_self.2 fun u hu => by simpa using hne u hu
    rw [hwithout.tasks, ← hid, hxs, List.filter_append, List.filter_cons_of_neg (by simp), ← List.filter_append, hkeep]
  have hp : S.ledger.preparing.Perm (S.finish i (S.supervisor.state.abandon l.reservation)).ledger.preparing :=
    perm_eraseIdx Activity.reserved? hi
  rw [hstep]
  refine ⟨hwithout, rfl, ?_⟩
  have hlivetasks : (S.supervisor.state.tasks.filter fun t => !t.isTerminal).Perm
      (t :: (xs ++ ys).filter fun t => !t.isTerminal) := by
    rw [hxs]
    refine (List.perm_middle.filter _).trans ?_
    rw [List.filter_cons_of_pos (by simp [hend])]
  have howners : (S.finish i (S.supervisor.state.abandon l.reservation)).ledger.owners =
      ((xs ++ ys).filter fun t => !t.isTerminal).map Task.holding ++
        (S.finish i (S.supervisor.state.abandon l.reservation)).ledger.preparing := by
    rw [← hrest]
    rfl
  rw [howners, ← hold]
  exact ((hlivetasks.map Task.holding).append hp)

/-- Where a run is refused it is cleared away. -/
theorem cleared_of_refused (hsound : S.ledger.Sound S.supervisor.settings) {refusal e : SupervisorError} {a : Action}
    (h : S.Refused refusal a e) : S.Cleared a := by
  cases h with
  | reserving hr => exact .unreserved (by simp [step, hr])
  | preparing hi hp => exact .unprepared hi (withdrawn_of_unprepared hsound hi hp)
  | @launching i l hi =>
    have hr : l.reservation ∈ S.ledger.launching := List.mem_filterMap.2 ⟨_, List.mem_of_getElem? hi, rfl⟩
    obtain ⟨t, htm, hold⟩ := hsound.recorded _ hr
    have hid : t.id = l.reservation.taskId := congrArg Reservation.taskId hold
    have ht : S.supervisor.state.find? l.reservation.taskId = some t :=
      hid ▸ SupervisorState.find?_of_mem hsound.nodup_tasks htm
    cases hend : t.isTerminal with
    | false =>
      have hlive := SupervisorState.isLive_eq_true_iff.2 ⟨t, ht, hend⟩
      exact .unlaunched hi hlive (withdrawn_of_unlaunched hsound hi hlive)
    | true =>
      have hsame : (S.step (.failLaunch i)).supervisor = S.supervisor := by
        simp [step, hi, finish, SupervisorState.abandon_of_ended ht hend]
      have hsound' : (S.step (.failLaunch i)).ledger.Sound (S.step (.failLaunch i)).supervisor.settings := by
        rw [settings_step]
        exact sound_step hsound _
      have ht' : (S.step (.failLaunch i)).supervisor.state.find? l.reservation.taskId = some t := by rw [hsame, ht]
      refine .ended hi ht hend hsame (fun after => ?_) (fun o ho he => ?_)
      · rcases evolves_or_takenBack_run hsound' ht' after with ⟨t', h', hev⟩ | ⟨_, _, _, _, t', _, _, _, _, hev, hl⟩
        · rw [h', hev.ended hend]
        · rw [hev.ended hend, hend] at hl
          cases hl
      · rcases List.mem_append.1 ho with ho | ho
        · -- a live task with this number would be this one, which has ended
          obtain ⟨u, hu, rfl⟩ := List.mem_map.1 ho
          obtain ⟨hu, hlive⟩ := List.mem_filter.1 hu
          have hfind := SupervisorState.find?_of_mem hsound'.nodup_tasks hu
          have hid' : u.id = l.reservation.taskId := he
          have hfind' : (S.step (.failLaunch i)).supervisor.state.find? u.id = some t := by rw [hid', ht']
          have hut : u = t := Option.some.inj (hfind.symm.trans hfind')
          rw [hut, hend] at hlive
          cases hlive
        · have hnone := hsound'.find?_eq_none ho
          rw [he] at hnone
          cases ht'.symm.trans hnone

/-- **A run that fails leaves no trace**, at whatever point of whatever history it is asked for. If nothing interrupts it,
the supervisor is afterwards what it was before, with its ports, tasks, pending runs, kept records and observers; so it is
also when there is a port for it but no second one, since the first one is returned, which undoes taking it. Among other
calls a run that is refused is cleared away: it has reserved nothing, or gives up what it had and changes nothing else,
or its task has ended, in which case the record stays for good. The ports that are taken are those of the other runs. -/
theorem failed_runs_leave_no_trace (c : SupervisorSettings) (w : Workshop) (store : TraceStore τ) (traces : τ)
    (packages : Option PackageManager) (before : List Action) :
    let S := (System.initial c w store traces packages).run before
    (∀ (launch : Supervisor.Launch τ) request draws now probes e,
      (∀ header program s e, (launch header program s).1 = .error e → (launch header program s).2 = s) →
        (S.supervisor.runScript launch request draws now probes).1 = .error e →
          (S.supervisor.runScript launch request draws now probes).2 = S.supervisor) ∧
      (∀ probe port pool, S.supervisor.state.pool.acquire? probe = some (port, pool) →
        pool.release port = S.supervisor.state.pool) ∧
      ∀ refusal a e, S.runAnswer? refusal a = some (.error e) →
        S.Cleared a ∧ ∀ port, (S.step a).supervisor.state.pool.isTaken port = true ↔
          ∃ o ∈ (S.step a).ledger.owners, port = o.httpPort ∨ port = o.localPort := by
  intro S
  have hsettings : S.supervisor.settings = c := settings_run _ before
  have hsound : S.ledger.Sound S.supervisor.settings := hsettings.symm ▸ sound_run c w store traces packages before
  refine ⟨fun launch request draws now probes e hlaunch => Supervisor.runScript_of_error hlaunch,
    fun probe port pool => PortPool.release_acquire?, fun refusal a e h => ⟨?_, fun port => ?_⟩⟩
  · exact cleared_of_refused hsound (runAnswer?_error.1 h)
  · have htaken : (S.step a).supervisor.state.pool.isTaken port = true ↔ port ∈ (S.step a).ledger.heldPorts :=
      (sound_step hsound a).holds.isTaken_iff port
    rw [htaken, Ledger.heldPorts, List.mem_flatMap]
    simp [Reservation.ports]

/-- A launch that fails after its task has finished, and a run of a script that there is not. -/
theorem failed_launch_of_ended_task :
    let c : SupervisorSettings := ⟨43000, 8, false, 0, "en", 43000, none⟩
    let before : List Action := [.run (Sample.request "job") [7] (.off, .off), .proceed 0 100,
      .report ⟨7, .finished, "done", 0⟩ 120, .proceed 0 120]
    let S := (System.initial c Sample.workshop .memory [] none).run before
    let launch : Supervisor.Launch (List Task) := fun _ _ s => (.error (.handoff "spawn refused"), s)
    (S.supervisor.runScript launch (Sample.request "missing") [8] 130).1 = .error (.scriptNotFound "missing") ∧
      (S.supervisor.runScript launch (Sample.request "missing") [8] 130).2 = S.supervisor ∧
      S.runAnswer? (.handoff "spawn refused") (.failLaunch 1) = some (.error (.handoff "spawn refused")) ∧
      S.Cleared (.failLaunch 1) := by
  intro c before S launch
  obtain ⟨halone, -, hanswer⟩ := failed_runs_leave_no_trace c Sample.workshop .memory [] none before
  have hmissing : (S.supervisor.runScript launch (Sample.request "missing") [8] 130).1 =
      .error (.scriptNotFound "missing") := by decide +kernel
  have hrefused : S.runAnswer? (.handoff "spawn refused") (.failLaunch 1) = some (.error (.handoff "spawn refused")) := by
    rfl
  exact ⟨hmissing, halone launch (Sample.request "missing") [8] 130 (.off, .off) _ (fun _ _ _ _ _ => rfl) hmissing,
    hrefused, (hanswer _ _ _ hrefused).1⟩

end System

end ScriptRunner
