import Mathlib.Data.List.Perm.Basic
import ScriptRunner.Proofs.Supervisor.Pool
import ScriptRunner.Supervisor.Preparation

/-!
# What each uninterruptible step does to the records

One statement for each function of `SupervisorState`: when it succeeds and what it changes. `reserve` and `applyReport`
are inverted (`reserve_ok`, `reserve_error`, `applyReport_ok`, `applyReport_error`), the others are described by the
records that can be looked up afterwards. Later modules use these and do not unfold the functions.
-/

namespace ScriptRunner

/-- A status may be left until it is terminal, and nothing leads back to the start. -/
theorem TaskStatus.canMoveTo_eq_true_iff {a b : TaskStatus} :
    a.canMoveTo b = true ↔ a.isTerminal = false ∧ (b = .start → a = .start) := by
  cases a <;> cases b <;> decide

namespace SupervisorState

variable {s s' : SupervisorState} {id : TaskId} {r : Reservation} {t : Task}

/-! ## Looking records up -/

theorem find?_mem (h : s.find? id = some t) : t ∈ s.tasks ∧ t.id = id :=
  ⟨List.mem_of_find?_eq_some h, by simpa using List.find?_some h⟩

theorem find?_eq_none_iff : s.find? id = none ↔ ∀ t ∈ s.tasks, t.id ≠ id := by
  simp [find?]

/-- Numbers that are not repeated make a record the one that is found. -/
theorem find?_of_mem (hn : (s.tasks.map Task.id).Nodup) (h : t ∈ s.tasks) : s.find? t.id = some t := by
  unfold find?
  revert hn h
  induction s.tasks with
  | nil => intro _ h; cases h
  | cons u ts ih =>
    intro hn h
    obtain ⟨hu, hn⟩ := List.nodup_cons.1 hn
    rcases List.mem_cons.1 h with rfl | h
    · simp
    · have hne : u.id ≠ t.id := fun he => hu (he ▸ List.mem_map_of_mem h)
      simpa [hne] using ih hn h

/-- Where the record that is found stands; the others have other numbers. -/
theorem tasks_eq_of_find? (hn : (s.tasks.map Task.id).Nodup) (h : s.find? id = some t) :
    ∃ xs ys, s.tasks = xs ++ t :: ys ∧ ∀ u ∈ xs ++ ys, u.id ≠ t.id := by
  obtain ⟨xs, ys, hs⟩ := List.append_of_mem (find?_mem h).1
  refine ⟨xs, ys, hs, fun u hu he => ?_⟩
  rw [hs, (List.perm_middle.map Task.id).nodup_iff] at hn
  exact (List.nodup_cons.1 hn).1 (he ▸ List.mem_map_of_mem hu)

theorem isLive_eq_true_iff : s.isLive id = true ↔ ∃ t, s.find? id = some t ∧ t.isTerminal = false := by
  unfold isLive
  cases s.find? id <;> simp

theorem isFresh_eq_true_iff : s.isFresh id = true ↔ s.find? id = none ∧ id ∉ s.pending := by
  rw [find?_eq_none_iff]
  simp only [isFresh, Bool.and_eq_true, List.all_eq_true, bne_iff_ne]
  exact and_congr_right fun _ => ⟨fun h hm => h id hm rfl, fun h p hp he => h (he ▸ hp)⟩

/-! ## Reserving -/

/-- A reservation that succeeds: the number of live tasks allows it, two ports are taken one after the other, and the
run is pending under a number that nothing else has. -/
theorem reserve_ok {c : SupervisorSettings} {draws : List TaskId} {probes : Probe × Probe}
    (h : s.reserve c draws probes = (.ok r, s')) :
    (c.restricted = true → s.liveCount < c.maxTasks.toNat) ∧
      (∃ q, s.pool.acquire? probes.1 = some (r.httpPort, q) ∧ q.acquire? probes.2 = some (r.localPort, s'.pool)) ∧
      s.isFresh r.taskId = true ∧ s'.tasks = s.tasks ∧ s'.pending = r.taskId :: s.pending := by
  unfold reserve at h
  split at h
  · cases h
  · rename_i hcap
    have hcap' : c.restricted = true → s.liveCount < c.maxTasks.toNat := by simpa using hcap
    split at h
    · cases h
    · rename_i http q hq
      split at h
      · cases h
      · rename_i loc q' hq'
        split at h
        · cases h
        · rename_i id hid
          obtain ⟨hr, rfl⟩ := Prod.mk.inj h
          obtain rfl := Except.ok.inj hr
          exact ⟨hcap', ⟨q, hq, hq'⟩, List.find?_some hid, rfl, rfl⟩

/-- A reservation that fails changes nothing; the first of two ports is freed if there is no second one. -/
theorem reserve_error {c : SupervisorSettings} {draws : List TaskId} {probes : Probe × Probe} {e : SupervisorError}
    (h : s.reserve c draws probes = (.error e, s')) : s' = s := by
  unfold reserve at h
  split at h
  · exact (Prod.mk.inj h).2.symm
  · split at h
    · exact (Prod.mk.inj h).2.symm
    · rename_i http q hq
      split at h
      · rw [← (Prod.mk.inj h).2, PortPool.release_acquire? hq]
      · split at h
        · exact (Prod.mk.inj h).2.symm
        · cases (Prod.mk.inj h).1

/-! ## Giving up, registering, taking back -/

@[simp] theorem find?_release (r : Reservation) (s : SupervisorState) (id : TaskId) :
    (s.release r).find? id = s.find? id := rfl

theorem find?_register (r : Reservation) (t : Task) (s : SupervisorState) (id : TaskId) :
    (s.register r t).find? id = if t.id = id then some t else s.find? id := by
  by_cases h : t.id = id
  · have hnone : (s.tasks.filter fun u => u.id != t.id).find? (fun u => u.id == id) = none := by simp [h]
    simp only [find?, register, putTask, List.find?_append, hnone, Option.none_or, if_pos h]
    simp [h]
  · simp only [find?, register, putTask, List.find?_append, if_neg h]
    have hlast : [t].find? (fun u => u.id == id) = none := by simp [h]
    rw [hlast, Option.or_none, List.find?_filter]
    congr 1
    funext u
    by_cases hu : u.id = id <;> simp [hu, Ne.symm h]

/-- A number without a record gets one beside the others: nothing is overwritten. -/
theorem tasks_register (r : Reservation) (h : s.find? t.id = none) : (s.register r t).tasks = s.tasks ++ [t] := by
  have hne : ∀ u ∈ s.tasks, (u.id != t.id) = true := by simpa using find?_eq_none_iff.1 h
  simp only [register, putTask, List.filter_eq_self.2 hne]

theorem find?_abandon (r : Reservation) (s : SupervisorState) (id : TaskId) :
    (s.abandon r).find? id = if s.isLive r.taskId = true ∧ id = r.taskId then none else s.find? id := by
  unfold abandon
  by_cases hl : s.isLive r.taskId = true
  · rw [if_pos hl, find?_release]
    by_cases hid : id = r.taskId
    · subst hid
      simp [hl, find?]
    · simp only [hl, hid, and_false, ↓reduceIte, find?, List.find?_filter]
      congr 1
      funext u
      by_cases hu : u.id = id <;> simp [hu, hid]
  · simp [hl]

/-! ## Reports -/

/-- Replacing the record of a number that has one makes it the one that is found. -/
theorem find?_replace_self {t u : Task} {ts : List Task} (h : ts.find? (fun v => v.id == t.id) = some u) :
    (ts.map fun v => if v.id == t.id then t else v).find? (fun v => v.id == t.id) = some t := by
  induction ts with
  | nil => cases h
  | cons v vs ih =>
    by_cases hv : v.id = t.id
    · simp [hv]
    · have hvs : vs.find? (fun w => w.id == t.id) = some u := by simpa [hv] using h
      simpa [hv] using ih hvs

theorem find?_replace_of_ne {t : Task} {ts : List Task} (h : id ≠ t.id) :
    (ts.map fun v => if v.id == t.id then t else v).find? (fun v => v.id == id) = ts.find? fun v => v.id == id := by
  induction ts with
  | nil => rfl
  | cons v vs ih =>
    by_cases hv : v.id = t.id
    · simpa [hv, h.symm] using ih
    · by_cases hvi : v.id = id
      · simp [hvi, h]
      · simpa [hv, hvi] using ih

/-- A report that is accepted finds a record that may move to its status, and changes that record only. -/
theorem applyReport_ok {report : StatusReport} {time : Int64} (h : s.applyReport report time = .ok (t, s')) :
    ∃ u, s.find? report.taskId = some u ∧ u.status.canMoveTo report.status = true ∧ t = amend u report time ∧
      s'.pool = settlePorts t s.pool ∧ s'.tasks = s.tasks.map (fun v => if v.id == t.id then t else v) ∧
      s'.pending = s.pending := by
  unfold applyReport at h
  split at h
  · cases h
  · rename_i u hu
    split at h
    · rename_i hm
      obtain ⟨rfl, rfl⟩ := Prod.mk.inj (Except.ok.inj h)
      exact ⟨u, hu, hm, rfl, rfl, rfl, rfl⟩
    · cases h

/-- A report is rejected for a task without a record, or for a status that the record may not move to. -/
theorem applyReport_error {report : StatusReport} {time : Int64} {e : SupervisorError}
    (h : s.applyReport report time = .error e) :
    s.find? report.taskId = none ∧ e = .taskNotFound report.taskId ∨
      ∃ u, s.find? report.taskId = some u ∧ u.status.canMoveTo report.status = false ∧
        e = .invalidTransition report.taskId u.status report.status := by
  unfold applyReport at h
  split at h
  · rename_i hu
    exact .inl ⟨hu, (Except.error.inj h).symm⟩
  · rename_i u hu
    split at h
    · cases h
    · rename_i hm
      refine .inr ⟨u, hu, by simpa using hm, ?_⟩
      rw [← (find?_mem hu).2]
      exact (Except.error.inj h).symm

/-- Among records with different numbers, replacing one leaves the others in their places. -/
theorem replace_eq {t u : Task} {xs ys : List Task} (hid : u.id = t.id) (hne : ∀ v ∈ xs ++ ys, v.id ≠ u.id) :
    (xs ++ u :: ys).map (fun v => if v.id == t.id then t else v) = xs ++ t :: ys := by
  have keep : ∀ zs : List Task, (∀ v ∈ zs, v.id ≠ u.id) → zs.map (fun v => if v.id == t.id then t else v) = zs := by
    intro zs hz
    refine (List.map_congr_left fun v hv => ?_).trans (List.map_id zs)
    simp [hid ▸ hz v hv]
  have hx := keep xs fun v hv => hne v (List.mem_append_left ys hv)
  have hy := keep ys fun v hv => hne v (List.mem_append_right xs hv)
  rw [List.map_append, List.map_cons, hx, hy]
  simp [hid]

theorem find?_applyReport {report : StatusReport} {time : Int64} (h : s.applyReport report time = .ok (t, s'))
    (id : TaskId) : s'.find? id = if id = report.taskId then some t else s.find? id := by
  obtain ⟨u, hu, -, rfl, -, htasks, -⟩ := applyReport_ok h
  have hid : (amend u report time).id = report.taskId := (find?_mem hu).2
  unfold find? at hu ⊢
  rw [htasks]
  by_cases he : id = report.taskId
  · rw [if_pos he, he, ← hid]
    exact find?_replace_self (by rw [hid]; exact hu)
  · rw [if_neg he]
    exact find?_replace_of_ne (by rw [hid]; exact he)

/-- What a report that is accepted gives is the record of a task that had not ended; at its end the time of the report
becomes the time of the end. -/
theorem applyReport_found {report : StatusReport} {time : Int64} (h : s.applyReport report time = .ok (t, s')) :
    t.id = report.taskId ∧ s'.find? t.id = some t ∧ (t.isTerminal = true → t.finishedAt = time) ∧
      ∃ u, s.find? t.id = some u ∧ u.isTerminal = false := by
  obtain ⟨u, hu, hmove, ht, -⟩ := applyReport_ok h
  have hid : t.id = report.taskId := by
    rw [ht]
    exact (find?_mem hu).2
  refine ⟨hid, ?_, fun hend => ?_, u, hid ▸ hu, (TaskStatus.canMoveTo_eq_true_iff.1 hmove).1⟩
  · rw [find?_applyReport h, if_pos hid]
  · have hstatus : report.status.isTerminal = true := by
      rw [ht] at hend
      exact hend
    rw [ht, amend, hstatus]
    rfl

end SupervisorState

namespace Workshop

/-- The header of a run carries the number and the ports that were reserved for it. -/
theorem prepare_ok {w : Workshop} {c : SupervisorSettings} {request : RunRequest} {r : Reservation} {h : Header}
    {b : Bytecode} (hp : w.prepare c request r = .ok (h, b)) :
    h.taskId = r.taskId ∧ h.httpPort = r.httpPort ∧ h.localPort = r.localPort := by
  unfold prepare at hp
  simp only [bind, Except.bind] at hp
  split at hp
  · cases hp
  · split at hp
    · cases hp
    · split at hp
      · cases hp
      · obtain ⟨rfl, -⟩ := Prod.mk.inj (Except.ok.inj hp)
        exact ⟨rfl, rfl, rfl⟩

end Workshop

end ScriptRunner
