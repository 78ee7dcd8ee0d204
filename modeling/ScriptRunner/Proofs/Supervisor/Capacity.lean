import ScriptRunner.Proofs.Supervisor.Answers
import ScriptRunner.Proofs.Supervisor.Ownership

/-!
# The number of live tasks is limited

In a sound ledger the count that the limit is compared with is the number of owners of ports
(`Ledger.Sound.liveCount_eq`), so a run counts once while it moves from the pending ones to the tasks. No move raises the
count but a reservation, which checks it first (`Ledger.Sound.liveCount_move`).
-/

namespace ScriptRunner

namespace SupervisorState

variable {c : SupervisorSettings} {s : SupervisorState}

/-- The limit refuses a run exactly when it is on and reached, whatever ports and numbers are left. -/
theorem reserve_limitExceeded_iff (draws : List TaskId) (probes : Probe × Probe) {n : UInt64} :
    s.reserve c draws probes = (.error (.limitExceeded n), s) ↔
      c.restricted = true ∧ c.maxTasks.toNat ≤ s.liveCount ∧ n = c.maxTasks := by
  unfold reserve
  constructor
  · intro h
    split at h
    · rename_i hcap
      simp only [Bool.and_eq_true, decide_eq_true_eq] at hcap
      cases h
      exact ⟨hcap.1, hcap.2, rfl⟩
    · split at h
      · cases h
      · split at h
        · cases h
        · split at h <;> cases h
  · rintro ⟨hon, hfull, rfl⟩
    simp [hon, hfull]

end SupervisorState

namespace Ledger

variable {c : SupervisorSettings} {times : Int64 → Prop} {taken : Option Reservation} {L L' : Ledger}

/-- Live tasks and pending runs are the owners of ports, each counted once. -/
theorem Sound.liveCount_eq (h : Sound c L) : L.state.liveCount = L.owners.length := by
  have hp : L.state.pending.length = L.preparing.length := by simpa using h.pending.length_eq
  rw [SupervisorState.liveCount, owners, hp]
  simp [List.countP_eq_length_filter]

/-- The live tasks among records of which some are left out. -/
theorem length_owners_le {s s' : SupervisorState} {ps ps' ls ls' : List Reservation} (ht : s'.tasks.Sublist s.tasks)
    (hp : ps'.length ≤ ps.length) :
    (⟨s', ps', ls'⟩ : Ledger).owners.length ≤ (⟨s, ps, ls⟩ : Ledger).owners.length := by
  have hlive := (ht.filter fun t => !t.isTerminal).length_le
  simp only [owners, List.length_append, List.length_map]
  omega

/-- **No move raises the count but a reservation**, which is refused at the limit. -/
theorem Sound.liveCount_move (h : Sound c L) (hm : Move c times taken L L') :
    L'.state.liveCount ≤ L.state.liveCount ∨
      L'.state.liveCount = L.state.liveCount + 1 ∧ (c.restricted = true → L.state.liveCount < c.maxTasks.toNat) := by
  have h' : Sound c L' := h.move hm
  rw [h'.liveCount_eq, h.liveCount_eq]
  cases hm with
  | still hp _ => exact .inl (length_owners_le (.refl _) (Nat.le_of_eq hp.length_eq.symm))
  | launched hp _ => exact .inl (length_owners_le (.refl _) (Nat.le_of_eq hp.length_eq.symm))
  | reserve hr =>
    obtain ⟨hcap, -, -, htasks, -⟩ := SupervisorState.reserve_ok hr
    rw [h.liveCount_eq] at hcap
    refine .inr ⟨?_, hcap⟩
    simp only [owners, htasks, List.length_append, List.length_cons]
    omega
  | release hp _ =>
    have hlen := hp.length_eq
    rw [List.length_cons] at hlen
    exact .inl (length_owners_le (.refl _) (by omega))
  | @register s ps ps' ls ls' r header now hp _ hh =>
    have hid : (Task.ofHeader header now).id = r.taskId := hh.1
    have hnone : s.find? r.taskId = none := (h.perm hp (.refl _)).find?_eq_none List.mem_cons_self
    have htasks := SupervisorState.tasks_register r (s := s) (t := Task.ofHeader header now) (by rw [hid, hnone])
    have hlive : (Task.ofHeader header now).isTerminal = false := rfl
    have hlen := hp.length_eq
    rw [List.length_cons] at hlen
    refine .inl ?_
    -- one record more and one reservation less
    simp only [owners, htasks, List.filter_append, List.filter_cons, hlive, List.length_append, List.length_map]
    simp
    omega
  | @takeBack s ps ps' ls ls' r hp _ =>
    refine .inl (length_owners_le ?_ (Nat.le_of_eq hp.length_eq.symm))
    unfold SupervisorState.abandon
    split
    · exact List.filter_sublist
    · exact .refl _
  | @report s s' ps ps' ls ls' report time t hp _ _ hs =>
    obtain ⟨u, hu, hmove, rfl, -, htasks, -⟩ := SupervisorState.applyReport_ok hs
    obtain ⟨xs, ys, hxs, hne⟩ := SupervisorState.tasks_eq_of_find? h.nodup_tasks hu
    have hlive : u.isTerminal = false := (TaskStatus.canMoveTo_eq_true_iff.1 hmove).1
    have hid : u.id = (SupervisorState.amend u report time).id := rfl
    rw [hxs, SupervisorState.replace_eq hid hne] at htasks
    have hlen := hp.length_eq
    refine .inl ?_
    simp only [owners, htasks, hxs, List.filter_append, List.filter_cons, hlive, List.length_append, List.length_map]
    split <;> simp <;> omega

end Ledger

/-! ## Every interleaving -/

namespace System

variable {τ : Type}

/-- While the limit is on, the count never exceeds it. -/
theorem liveCount_le_run (c : SupervisorSettings) (w : Workshop) (store : TraceStore τ) (traces : τ)
    (packages : Option PackageManager) (hon : c.restricted = true) (actions : List Action) :
    ((System.initial c w store traces packages).run actions).supervisor.state.liveCount ≤ c.maxTasks.toNat := by
  have h : let S := (System.initial c w store traces packages).run actions
      S.supervisor.settings = c ∧ S.ledger.Sound c ∧ S.supervisor.state.liveCount ≤ c.maxTasks.toNat := by
    refine run_induction (P := fun S => S.supervisor.settings = c ∧ S.ledger.Sound c ∧
      S.supervisor.state.liveCount ≤ c.maxTasks.toNat) (fun S a _ ⟨hc, hs, hle⟩ => ?_)
      ⟨rfl, Ledger.sound_initial c, Nat.zero_le _⟩
    obtain ⟨_, hm, -⟩ := step_move (S := S) (fun _ => True) (fun _ _ _ => trivial) a
    rw [hc] at hm
    refine ⟨by rw [settings_step, hc], hs.move hm, ?_⟩
    have hS : S.ledger.state.liveCount ≤ c.maxTasks.toNat := hle
    have hgoal : (S.step a).ledger.state.liveCount ≤ c.maxTasks.toNat := by
      rcases hs.liveCount_move hm with h | ⟨h, hcap⟩
      · omega
      · have := hcap hon
        omega
    exact hgoal
  exact h.2.2

/-- **The limit is kept.** Whatever the interleaving of runs, reports, failed launches and exits, the tasks that have not
ended and the runs without a record are together no more than the limit. Of all calls under way a run is told that the
limit is exceeded exactly when it finds that many when it reserves, and then everything is as before, whatever the pool
still has; the same goes for a run that nothing interrupts. -/
theorem restricted_runs_stay_within_limit (c : SupervisorSettings) (w : Workshop) (store : TraceStore τ) (traces : τ)
    (packages : Option PackageManager) (hon : c.restricted = true) (actions : List Action) :
    let S := (System.initial c w store traces packages).run actions
    let state := S.supervisor.state
    (state.tasks.filter fun t => !t.isTerminal).length + state.pending.length ≤ c.maxTasks.toNat ∧ state.pending.Nodup ∧
      (∀ refusal n a, (∀ m, refusal ≠ .limitExceeded m) →
        (S.runAnswer? refusal a = some (.error (.limitExceeded n)) ↔
          (∃ request draws probes, a = .run request draws probes) ∧ n = c.maxTasks ∧
            c.maxTasks.toNat ≤ (state.tasks.filter fun t => !t.isTerminal).length + state.pending.length) ∧
        (S.runAnswer? refusal a = some (.error (.limitExceeded n)) → S.step a = S)) ∧
      ∀ (launch : Supervisor.Launch τ) request draws now probes n,
        (∀ header program s m, (launch header program s).1 ≠ .error (.limitExceeded m)) →
        ((S.supervisor.runScript launch request draws now probes).1 = .error (.limitExceeded n) ↔ n = c.maxTasks ∧
            c.maxTasks.toNat ≤ (state.tasks.filter fun t => !t.isTerminal).length + state.pending.length) ∧
        ((S.supervisor.runScript launch request draws now probes).1 = .error (.limitExceeded n) →
          (S.supervisor.runScript launch request draws now probes).2 = S.supervisor) := by
  intro S state
  have hsettings : S.supervisor.settings = c := settings_run _ actions
  have hsound : S.ledger.Sound c := sound_run c w store traces packages actions
  have hcount : (state.tasks.filter fun t => !t.isTerminal).length + state.pending.length = state.liveCount := by
    rw [SupervisorState.liveCount, List.countP_eq_length_filter]
  rw [hcount]
  refine ⟨liveCount_le_run c w store traces packages hon actions, ?_, fun refusal n a hrefusal => ?_,
    fun launch request draws now probes n hlaunch => ?_⟩
  · exact hsound.pending.nodup_iff.2 (List.nodup_append.1 hsound.ids).2.1
  · have hanswer : S.runAnswer? refusal a = some (.error (.limitExceeded n)) → ∃ request draws probes,
        a = .run request draws probes ∧ state.reserve c draws probes = (.error (.limitExceeded n), state) := by
      intro h
      cases runAnswer?_error.1 h with
      | reserving hr => exact ⟨_, _, _, rfl, hsettings ▸ hr⟩
      | preparing _ hp => exact absurd hp (Workshop.prepare_ne_limitExceeded n)
      | launching _ => exact absurd rfl (hrefusal n)
    refine ⟨⟨fun h => ?_, ?_⟩, fun h => ?_⟩
    · obtain ⟨request, draws, probes, rfl, hr⟩ := hanswer h
      obtain ⟨-, hfull, hn⟩ := (SupervisorState.reserve_limitExceeded_iff draws probes).1 hr
      exact ⟨⟨request, draws, probes, rfl⟩, hn, hfull⟩
    · rintro ⟨⟨request, draws, probes, rfl⟩, hn, hfull⟩
      have hr := (SupervisorState.reserve_limitExceeded_iff draws probes).2 ⟨hon, hfull, hn⟩
      exact runAnswer?_error.2 (.reserving (hsettings.symm ▸ hr))
    · obtain ⟨request, draws, probes, rfl, hr⟩ := hanswer h
      rw [← hsettings] at hr
      simp only [step]
      rw [hr]
  · have hanswer : (S.supervisor.runScript launch request draws now probes).1 = .error (.limitExceeded n) →
        state.reserve c draws probes = (.error (.limitExceeded n), state) ∧
          (S.supervisor.runScript launch request draws now probes).2 = S.supervisor := by
      intro h
      rcases Supervisor.runScript_error h with ⟨hr, hs⟩ | ⟨r, s, -, ⟨hp, -⟩ | ⟨header, program, -, hl, -⟩⟩
      · exact ⟨hsettings ▸ hr, hs⟩
      · exact absurd hp (Workshop.prepare_ne_limitExceeded n)
      · exact absurd hl (hlaunch _ _ _ n)
    refine ⟨⟨fun h => ?_, fun h => ?_⟩, fun h => (hanswer h).2⟩
    · obtain ⟨-, hfull, hn⟩ := (SupervisorState.reserve_limitExceeded_iff draws probes).1 (hanswer h).1
      exact ⟨hn, hfull⟩
    · obtain ⟨hn, hfull⟩ := h
      have hr := (SupervisorState.reserve_limitExceeded_iff draws probes).2 ⟨hon, hfull, hn⟩
      rw [← hsettings] at hr
      simp only [Supervisor.runScript, Supervisor.beginRun]
      rw [hr]

/-- A second run beside one that is being prepared, with a limit of one and a pool of two ports. -/
theorem second_run_meets_limit :
    let c : SupervisorSettings := ⟨43000, 2, true, 1, "en", 43000, none⟩
    let S := (System.initial c Sample.workshop .memory [] none).run [.run (Sample.request "job") [7] (.off, .off)]
    let launch : Supervisor.Launch (List Task) := fun _ _ s => (.error (.handoff "spawn refused"), s)
    c.restricted = true ∧ S.supervisor.state.pool.inUse = S.supervisor.state.pool.capacity ∧
      S.runAnswer? (.handoff "spawn refused") (.run (Sample.request "job") [8] (.off, .off)) =
        some (.error (.limitExceeded 1)) ∧
      (S.supervisor.runScript launch (Sample.request "job") [8] 100).2 = S.supervisor := by
  intro c S launch
  obtain ⟨-, -, hanswer, hrun⟩ := restricted_runs_stay_within_limit c Sample.workshop .memory [] none rfl
    [.run (Sample.request "job") [7] (.off, .off)]
  have hrefused := (hanswer (.handoff "spawn refused") 1 (.run (Sample.request "job") [8] (.off, .off)) nofun).1
  have hlimit := hrun launch (Sample.request "job") [8] 100 (.off, .off) 1 nofun
  have hfull : (1 : UInt64) = c.maxTasks ∧ c.maxTasks.toNat ≤
      (S.supervisor.state.tasks.filter fun t => !t.isTerminal).length + S.supervisor.state.pending.length :=
    ⟨rfl, by decide⟩
  exact ⟨rfl, rfl, hrefused.2 ⟨⟨_, _, _, rfl⟩, hfull⟩, hlimit.2 (hlimit.1.2 hfull)⟩

end System

end ScriptRunner
