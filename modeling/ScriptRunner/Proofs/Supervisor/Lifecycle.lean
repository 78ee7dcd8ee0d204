import ScriptRunner.Proofs.Supervisor.Ownership

/-!
# The life of a record

A record keeps what identifies its task, never returns to the start, and does not change once its task has ended
(`Task.Evolves`). Every action lets each record evolve, or takes back the record of a live task whose launch fails
(`evolves_or_takenBack_step`); by induction so does every interleaving (`evolves_or_takenBack_run`). A task has a time
of its end exactly when it has ended, as long as the clock does not read 0 (`Timed`).
-/

namespace ScriptRunner

/-- What may become of a record. -/
structure Task.Evolves (t t' : Task) : Prop where
  identity : t'.id = t.id ∧ t'.name = t.name ∧ t'.title = t.title ∧ t'.userId = t.userId ∧ t'.roleId = t.roleId ∧
    t'.httpPort = t.httpPort ∧ t'.localPort = t.localPort ∧ t'.startedAt = t.startedAt
  ended : t.isTerminal = true → t' = t
  started : t.status ≠ .start → t'.status ≠ .start

namespace Task.Evolves

variable {t t' t'' : Task}

theorem refl (t : Task) : t.Evolves t := ⟨⟨rfl, rfl, rfl, rfl, rfl, rfl, rfl, rfl⟩, fun _ => rfl, fun h => h⟩

theorem trans (h : t.Evolves t') (h' : t'.Evolves t'') : t.Evolves t'' where
  identity := by
    obtain ⟨h₁, h₂, h₃, h₄, h₅, h₆, h₇, h₈⟩ := h.identity
    obtain ⟨k₁, k₂, k₃, k₄, k₅, k₆, k₇, k₈⟩ := h'.identity
    exact ⟨k₁.trans h₁, k₂.trans h₂, k₃.trans h₃, k₄.trans h₄, k₅.trans h₅, k₆.trans h₆, k₇.trans h₇, k₈.trans h₈⟩
  ended := fun ht => by
    have he : t' = t := h.ended ht
    rw [← he] at ht
    exact (h'.ended ht).trans he
  started := fun ht => h'.started (h.started ht)

end Task.Evolves

/-- A report that a record accepts. -/
theorem SupervisorState.evolves_amend {t : Task} {report : StatusReport} (h : t.status.canMoveTo report.status = true)
    (time : Int64) : t.Evolves (amend t report time) where
  identity := ⟨rfl, rfl, rfl, rfl, rfl, rfl, rfl, rfl⟩
  ended := fun ht => absurd (ht.symm.trans (TaskStatus.canMoveTo_eq_true_iff.1 h).1) nofun
  started := fun ht hs => ht ((TaskStatus.canMoveTo_eq_true_iff.1 h).2 hs)

namespace Ledger

variable {c : SupervisorSettings} {times : Int64 → Prop} {taken : Option Reservation} {L L' : Ledger} {id : TaskId}
  {t : Task}

/-- A record evolves in every move but the failed launch of a live task. -/
theorem Move.evolves (hm : Move c times taken L L') (h : Sound c L) (ht : L.state.find? id = some t) :
    (∃ t', L'.state.find? id = some t' ∧ t.Evolves t') ∨
      ∃ r, taken = some r ∧ r.taskId = id ∧ t.isTerminal = false := by
  cases hm with
  | still | launched | release => exact .inl ⟨t, ht, .refl t⟩
  | reserve hr =>
    obtain ⟨-, -, -, htasks, -⟩ := SupervisorState.reserve_ok hr
    refine .inl ⟨t, ?_, .refl t⟩
    simpa [SupervisorState.find?, htasks] using ht
  | @register s ps _ ls _ r header now hp _ hh =>
    refine .inl ⟨t, ?_, .refl t⟩
    have hnone : s.find? r.taskId = none := h.find?_eq_none (hp.mem_iff.2 List.mem_cons_self)
    have hne : (Task.ofHeader header now).id ≠ id := by
      rintro rfl
      have hnone' : s.find? header.taskId = none := hh.1 ▸ hnone
      cases ht.symm.trans hnone'
    rw [SupervisorState.find?_register, if_neg hne]
    exact ht
  | @takeBack s ps _ ls _ r _ _ =>
    by_cases hr : s.isLive r.taskId = true ∧ id = r.taskId
    · obtain ⟨u, hu, hlive⟩ := SupervisorState.isLive_eq_true_iff.1 hr.1
      have he : u = t := Option.some.inj (hu.symm.trans (hr.2 ▸ ht))
      exact .inr ⟨r, rfl, hr.2.symm, he ▸ hlive⟩
    · refine .inl ⟨t, ?_, .refl t⟩
      rw [SupervisorState.find?_abandon, if_neg hr]
      exact ht
  | @report s s' _ _ _ _ report time u _ _ _ hs =>
    obtain ⟨v, hv, hmove, rfl, -, -, -⟩ := SupervisorState.applyReport_ok hs
    have hfind := SupervisorState.find?_applyReport hs id
    by_cases hid : id = report.taskId
    · have he : v = t := Option.some.inj (hv.symm.trans (hid ▸ ht))
      rw [if_pos hid] at hfind
      exact .inl ⟨_, hfind, he ▸ SupervisorState.evolves_amend hmove time⟩
    · rw [if_neg hid] at hfind
      exact .inl ⟨t, hfind.trans ht, .refl t⟩

/-- Without reports no task ends. -/
theorem Move.ended_before (hm : Move c (fun _ => False) taken L L') (ht : L'.state.find? id = some t)
    (hend : t.isTerminal = true) : L.state.find? id = some t := by
  cases hm with
  | still | launched | release => exact ht
  | reserve hr =>
    obtain ⟨-, -, -, htasks, -⟩ := SupervisorState.reserve_ok hr
    simpa [SupervisorState.find?, htasks] using ht
  | register _ _ _ =>
    rw [SupervisorState.find?_register] at ht
    split at ht
    · obtain rfl := Option.some.inj ht
      cases hend
    · exact ht
  | takeBack _ _ =>
    rw [SupervisorState.find?_abandon] at ht
    split at ht
    · cases ht
    · exact ht
  | report _ _ htime _ => exact htime.elim

/-- A task has a time of its end exactly when it has ended. -/
def Timed (L : Ledger) : Prop := ∀ t ∈ L.state.tasks, t.finishedAt = 0 ↔ t.isTerminal = false

theorem Move.timed (hm : Move c (· ≠ 0) taken L L') (h : Timed L) : Timed L' := by
  cases hm with
  | still | launched | release => exact h
  | reserve hr =>
    obtain ⟨-, -, -, htasks, -⟩ := SupervisorState.reserve_ok hr
    intro t ht
    exact h t (htasks ▸ ht)
  | register _ _ _ =>
    intro t ht
    rcases List.mem_append.1 ht with ht | ht
    · exact h t (List.mem_filter.1 ht).1
    · rw [List.mem_singleton.1 ht]
      exact ⟨fun _ => rfl, fun _ => rfl⟩
  | takeBack _ _ =>
    intro t ht
    unfold SupervisorState.abandon at ht
    split at ht
    · exact h t (List.mem_filter.1 ht).1
    · exact h t ht
  | @report s _ _ _ _ _ report time _ _ _ htime hs =>
    obtain ⟨u, hu, hmove, rfl, -, htasks, -⟩ := SupervisorState.applyReport_ok hs
    intro t ht
    rw [htasks] at ht
    obtain ⟨v, hv, rfl⟩ := List.mem_map.1 ht
    split
    · have hu' := h u (SupervisorState.find?_mem hu).1
      have hmoved : (SupervisorState.amend u report time).isTerminal = report.status.isTerminal := rfl
      rw [hmoved]
      by_cases hend : report.status.isTerminal = true
      · simp [SupervisorState.amend, hend, htime]
      · have hlive : u.isTerminal = false := (TaskStatus.canMoveTo_eq_true_iff.1 hmove).1
        simp [SupervisorState.amend, hend, hu'.2 hlive]
    · exact h v hv

end Ledger

namespace System

variable {τ : Type} {S : System τ} {id : TaskId} {t : Task}

/-! ## Records over a run -/

theorem evolves_or_takenBack_step (h : S.ledger.Sound S.supervisor.settings) (ht : S.supervisor.state.find? id = some t)
    (a : Action) :
    (∃ t', (S.step a).supervisor.state.find? id = some t' ∧ t.Evolves t') ∨
      ∃ i l, a = .failLaunch i ∧ S.activities[i]? = some (.launching l) ∧ l.reservation.taskId = id ∧
        t.isTerminal = false := by
  obtain ⟨taken, hm, hnamed⟩ := step_move (S := S) (fun _ => True) (fun _ _ _ => trivial) a
  rcases hm.evolves h ht with h' | ⟨r, hr, hid, hlive⟩
  · exact .inl h'
  · obtain ⟨i, l, ha, hi, rfl⟩ := hnamed r hr
    exact .inr ⟨i, l, ha, hi, hid, hlive⟩

/-- On the way the launch of the task fails while the task is live, with the record that `t` has become by then. -/
def TakenBack (S : System τ) (actions : List Action) (id : TaskId) (t : Task) : Prop :=
  ∃ before i after l t', actions = before ++ .failLaunch i :: after ∧
    (S.run before).activities[i]? = some (.launching l) ∧ l.reservation.taskId = id ∧
    (S.run before).supervisor.state.find? id = some t' ∧ t.Evolves t' ∧ t'.isTerminal = false

theorem evolves_or_takenBack_run (h : S.ledger.Sound S.supervisor.settings) (ht : S.supervisor.state.find? id = some t)
    (actions : List Action) :
    (∃ t', (S.run actions).supervisor.state.find? id = some t' ∧ t.Evolves t') ∨ S.TakenBack actions id t := by
  induction actions generalizing S t with
  | nil => exact .inl ⟨t, ht, .refl t⟩
  | cons a as ih =>
    rcases evolves_or_takenBack_step h ht a with ⟨t₁, ht₁, he₁⟩ | ⟨i, l, rfl, hi, hid, hlive⟩
    · have h₁ : (S.step a).ledger.Sound (S.step a).supervisor.settings := by
        rw [settings_step]
        exact sound_step h a
      rcases ih h₁ ht₁ with ⟨t₂, ht₂, he₂⟩ | ⟨before, i, after, l, t₂, rfl, hi, hid, ht₂, he₂, hlive⟩
      · exact .inl ⟨t₂, ht₂, he₁.trans he₂⟩
      · exact .inr ⟨a :: before, i, after, l, t₂, rfl, hi, hid, ht₂, he₁.trans he₂, hlive⟩
    · exact .inr ⟨[], i, as, l, t, rfl, hi, hid, ht, .refl t, hlive⟩

/-- The record of a task that has ended stays. -/
theorem find?_run_of_ended (h : S.ledger.Sound S.supervisor.settings) (ht : S.supervisor.state.find? id = some t)
    (hend : t.isTerminal = true) (actions : List Action) : (S.run actions).supervisor.state.find? id = some t := by
  rcases evolves_or_takenBack_run h ht actions with ⟨t', ht', hev⟩ | ⟨_, _, _, _, t', _, _, _, _, hev, hlive⟩
  · rw [ht', hev.ended hend]
  · rw [hev.ended hend, hend] at hlive
    cases hlive

/-! ## The time of the end -/

theorem effectiveTime_ne_zero (report : StatusReport) {now : Int64} (h : now ≠ 0) : report.effectiveTime now ≠ 0 := by
  unfold StatusReport.effectiveTime
  split <;> assumption

/-- A report that is to be applied was there before, or has just come in. -/
theorem reporting_of_step {a : Action} {report : StatusReport} {time : Int64}
    (h : Activity.reporting report time ∈ (S.step a).activities) :
    Activity.reporting report time ∈ S.activities ∨ ∃ now, a.clock? = some now ∧ time = report.effectiveTime now := by
  rcases activities_of_step h with hm | hbegun
  · exact .inl hm
  · cases hbegun with
    | reporting | exiting => exact .inr ⟨_, rfl, rfl⟩

theorem timed_run (c : SupervisorSettings) (w : Workshop) (store : TraceStore τ) (traces : τ)
    (packages : Option PackageManager) {actions : List Action} (hclock : ∀ a ∈ actions, a.clock? ≠ some 0) :
    ((System.initial c w store traces packages).run actions).ledger.Timed := by
  have h : let T := (System.initial c w store traces packages).run actions
      (∀ report time, Activity.reporting report time ∈ T.activities → time ≠ 0) ∧ T.ledger.Timed := by
    refine run_induction
      (P := fun T => (∀ report time, Activity.reporting report time ∈ T.activities → time ≠ 0) ∧ T.ledger.Timed)
      (fun T a ha ⟨htimes, htimed⟩ => ⟨fun report time hm => ?_, ?_⟩) ⟨nofun, nofun⟩
    · rcases reporting_of_step hm with hm | ⟨now, hnow, rfl⟩
      · exact htimes report time hm
      · exact effectiveTime_ne_zero report fun h0 => hclock a ha (h0 ▸ hnow)
    · obtain ⟨_, hmove, -⟩ := step_move (S := T) (· ≠ 0) htimes a
      exact hmove.timed htimed
  exact h.2

end System

/-! ## Final reports and exits -/

namespace SupervisorState

variable {s : SupervisorState} {t : Task} {report : StatusReport}

/-- Nothing is accepted for a task that has ended. -/
theorem applyReport_of_terminal (h : s.find? report.taskId = some t) (ht : t.isTerminal = true) (time : Int64) :
    s.applyReport report time = .error (.invalidTransition report.taskId t.status report.status) := by
  have hmove : t.status.canMoveTo report.status = false :=
    Bool.eq_false_iff.2 fun hm => absurd (ht.symm.trans (TaskStatus.canMoveTo_eq_true_iff.1 hm).1) nofun
  simp [applyReport, h, hmove, (find?_mem h).2]

/-- A final report about a live task is accepted. -/
theorem applyReport_of_live (h : s.find? report.taskId = some t) (ht : t.isTerminal = false)
    (hr : report.status.isTerminal = true) (time : Int64) :
    ∃ s', s.applyReport report time = .ok (amend t report time, s') ∧
      s'.find? report.taskId = some (amend t report time) := by
  have hmove : t.status.canMoveTo report.status = true :=
    TaskStatus.canMoveTo_eq_true_iff.2 ⟨ht, fun hs => by simp [hs, TaskStatus.isTerminal] at hr⟩
  have hs : ∃ s', s.applyReport report time = .ok (amend t report time, s') := by simp [applyReport, h, hmove]
  obtain ⟨s', hs⟩ := hs
  exact ⟨s', hs, by rw [find?_applyReport hs, if_pos rfl]⟩

end SupervisorState

namespace Supervisor

variable {τ : Type} {s : Supervisor τ}

/-- A report that is rejected leaves the supervisor as it is. -/
theorem updateStatus_error {report : StatusReport} {now : Int64} {e : SupervisorError}
    (h : (s.updateStatus report now).1 = .error e) :
    (s.updateStatus report now).2 = s ∧
      (e = .taskNotFound report.taskId ∨ ∃ b, e = .invalidTransition report.taskId b report.status) := by
  cases hs : s.state.applyReport report (report.effectiveTime now) with
  | error e' =>
    simp only [updateStatus, hs] at h ⊢
    obtain rfl := Except.error.inj h
    refine ⟨trivial, ?_⟩
    rcases SupervisorState.applyReport_error hs with ⟨-, he⟩ | ⟨u, -, -, he⟩
    · exact .inl he
    · exact .inr ⟨u.status, he⟩
  | ok v =>
    simp only [updateStatus, hs] at h
    cases h

theorem find?_updateStatus {report : StatusReport} {now : Int64} {t : Task} (h : s.state.find? report.taskId = some t)
    (ht : t.isTerminal = false) (hr : report.status.isTerminal = true) :
    (s.updateStatus report now).2.state.find? report.taskId =
      some (SupervisorState.amend t report (report.effectiveTime now)) := by
  obtain ⟨s', hs, hfind⟩ := SupervisorState.applyReport_of_live h ht hr (report.effectiveTime now)
  simpa [updateStatus, hs, keepTrace, announce] using hfind

end Supervisor

/-! ## The life of a record in every interleaving -/

namespace System

variable {τ : Type}

/-- **A record follows the life of its task**, whatever interleaving led to it and whatever comes after. It evolves,
unless the launch of the task fails while the task is live; once the task has ended the record stays as it is. Until
then the time of the end is 0, and only until then. Of the final reports and the exit of a task the first one that is
applied ends the task, and from then on neither a report nor the exit has any effect. A report that is rejected changes
nothing. -/
theorem records_follow_their_tasks (c : SupervisorSettings) (w : Workshop) (store : TraceStore τ) (traces : τ)
    (packages : Option PackageManager) (before : List Action) :
    let S := (System.initial c w store traces packages).run before
    (∀ id t, S.supervisor.state.find? id = some t →
      (∀ after, (∃ t', (S.run after).supervisor.state.find? id = some t' ∧ t.Evolves t') ∨ S.TakenBack after id t) ∧
        (t.isTerminal = true → ∀ after, (S.run after).supervisor.state.find? id = some t) ∧
        ((∀ a ∈ before, a.clock? ≠ some 0) → (t.finishedAt = 0 ↔ t.isTerminal = false)) ∧
        (∀ (i : Nat) report time now, S.activities[i]? = some (.reporting report time) → report.taskId = id →
          (t.isTerminal = true → (S.step (.proceed i now)).supervisor = S.supervisor) ∧
            (t.isTerminal = false → report.status.isTerminal = true →
              (S.step (.proceed i now)).supervisor.state.find? id = some (SupervisorState.amend t report time))) ∧
        ∀ code now,
          (t.isTerminal = true → S.step (.exit id code now) = S ∧ S.supervisor.childExited id code now = S.supervisor) ∧
            (t.isTerminal = false → ∃ t', (S.supervisor.childExited id code now).state.find? id = some t' ∧
              t'.status = .crashed ∧ t'.message = Supervisor.exitMessage code)) ∧
      (∀ report now e, (S.supervisor.updateStatus report now).1 = .error e →
        (S.supervisor.updateStatus report now).2 = S.supervisor ∧
          (e = .taskNotFound report.taskId ∨ ∃ b, e = .invalidTransition report.taskId b report.status)) ∧
      ∀ (i : Nat) report time now e, S.activities[i]? = some (.reporting report time) →
        S.supervisor.state.applyReport report time = .error e → (S.step (.proceed i now)).supervisor = S.supervisor := by
  intro S
  have hsettings : S.supervisor.settings = c := settings_run _ before
  have hsound : S.ledger.Sound S.supervisor.settings := hsettings.symm ▸ sound_run c w store traces packages before
  have hrejected : ∀ (i : Nat) report time now e, S.activities[i]? = some (.reporting report time) →
      S.supervisor.state.applyReport report time = .error e → (S.step (.proceed i now)).supervisor = S.supervisor := by
    intro i report time now e hi he
    simp [step, proceed, hi, he, finish]
  refine ⟨fun id t ht => ?_, fun report now e => Supervisor.updateStatus_error, hrejected⟩
  have hlive : S.supervisor.state.isLive id = !t.isTerminal := by simp [SupervisorState.isLive, ht]
  refine ⟨evolves_or_takenBack_run hsound ht, fun hend after => ?_, fun hclock => ?_, fun i report time now hi hid => ?_,
    fun code now => ⟨fun hend => ?_, fun hl => ?_⟩⟩
  · -- a record that was taken back was live, and until then it could only evolve
    rcases evolves_or_takenBack_run hsound ht after with ⟨t', ht', he⟩ | ⟨_, _, _, _, t', _, _, _, _, he, hl⟩
    · rw [ht', he.ended hend]
    · rw [he.ended hend, hend] at hl
      cases hl
  · exact timed_run c w store traces packages hclock t (SupervisorState.find?_mem ht).1
  · subst hid
    refine ⟨fun hend => ?_, fun hl hr => ?_⟩
    · exact hrejected i report time now _ hi (SupervisorState.applyReport_of_terminal ht hend time)
    · obtain ⟨s', hs, hfind⟩ := SupervisorState.applyReport_of_live ht hl hr time
      simpa [step, proceed, hi, hs] using hfind
  · simp [step, Supervisor.childExited, hlive, hend]
  · have hfind : (S.supervisor.updateStatus (Supervisor.exitReport id code now) now).2.state.find? id = some _ :=
      Supervisor.find?_updateStatus ht hl rfl
    have hexit : S.supervisor.childExited id code now =
        (S.supervisor.updateStatus (Supervisor.exitReport id code now) now).2 := by
      simp [Supervisor.childExited, hlive, hl]
    exact ⟨_, (congrArg (fun s => s.state.find? id) hexit).trans hfind, rfl, rfl⟩

/-- A task that finished while its launch was under way, and whose process then went away. -/
theorem finished_record_stays :
    let job : Script.Definition :=
      { name := "job", title := "", kind := .template, params := [], body := "", tree := [], titles := .empty,
        unrunnable := false, role := none }
    let w : Workshop := ⟨.ofList [job], fun _ _ => true, ⟨[]⟩, fun _ => .ok ⟨"text", []⟩⟩
    let c : SupervisorSettings := ⟨43000, 8, false, 0, "en", 43000, none⟩
    let request : RunRequest := ⟨"job", none, 0, 0, .empty, .null, false, .empty⟩
    let before : List Action :=
      [.run request [7] (.off, .off), .proceed 0 100, .report ⟨7, .finished, "done", 0⟩ 120, .proceed 0 120]
    let t : Task := ⟨7, .finished, "job", "job", 0, 0, 43001, 43002, 100, 120, "done"⟩
    let S := (System.initial c w .memory [] none).run before
    S.supervisor.state.find? 7 = some t ∧ t.isTerminal = true ∧
      ∀ after, (S.run after).supervisor.state.find? 7 = some t := by
  intro job w c request before t S
  have ht : S.supervisor.state.find? 7 = some t := by rfl
  obtain ⟨-, hstays, -⟩ := (records_follow_their_tasks c w .memory [] none before).1 7 t ht
  exact ⟨ht, rfl, hstays rfl⟩

end System

end ScriptRunner
