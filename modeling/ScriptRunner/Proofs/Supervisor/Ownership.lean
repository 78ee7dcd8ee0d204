import Mathlib.Data.List.Nodup
import ScriptRunner.Proofs.Supervisor.Ledger
import ScriptRunner.Proofs.Supervisor.Pool

/-!
# Every port has one owner

The owners of ports are the live tasks and the runs without a record (`Ledger.owners`). `Ledger.Sound` says that the
pool holds exactly their ports, that no two of them share one, and that a run being launched still has the record that
was made for it. Every move keeps it (`Sound.move`), hence every interleaving does (`sound_run`).

The four places where ports are returned free what one owner holds: a run that is given up (`Sound.release`), a launch
that fails while its task is live (`Sound.takeBack`), a report that ends a task (`Sound.report`), and a second port that
is not there, for which the first one is freed again (`SupervisorState.reserve_error`).
-/

namespace ScriptRunner

def Reservation.ports (r : Reservation) : List Port := [r.httpPort, r.localPort]

/-- What a task holds until it ends. -/
def Task.holding (t : Task) : Reservation := ⟨t.id, t.httpPort, t.localPort⟩

namespace Ledger

/-- The tasks that have not ended and the runs without a record. -/
def owners (L : Ledger) : List Reservation :=
  (L.state.tasks.filter fun t => !t.isTerminal).map Task.holding ++ L.preparing

/-- Both ports of every owner. -/
def heldPorts (L : Ledger) : List Port := L.owners.flatMap Reservation.ports

structure Sound (c : SupervisorSettings) (L : Ledger) : Prop where
  holds : L.state.pool.Holds L.heldPorts
  extent : L.state.pool.base = c.basePort ∧
    L.state.pool.capacity = min c.portPoolSize.toNat (65535 - c.basePort.toNat)
  ids : (L.state.tasks.map Task.id ++ L.preparing.map Reservation.taskId).Nodup
  pending : L.state.pending.Perm (L.preparing.map Reservation.taskId)
  launching : (L.launching.map Reservation.taskId).Nodup
  recorded : ∀ r ∈ L.launching, ∃ t ∈ L.state.tasks, t.holding = r

variable {c : SupervisorSettings} {s s' : SupervisorState} {ps ps' ls ls' : List Reservation} {r : Reservation}

theorem heldPorts_perm (h : ps.Perm ps') : (⟨s, ps, ls⟩ : Ledger).heldPorts.Perm (⟨s, ps', ls'⟩ : Ledger).heldPorts :=
  (h.append_left _).flatMap_right _

/-- The owners with one more run. -/
theorem heldPorts_cons (s : SupervisorState) (r : Reservation) (ps ls : List Reservation) :
    (⟨s, r :: ps, ls⟩ : Ledger).heldPorts.Perm (r.httpPort :: r.localPort :: (⟨s, ps, ls⟩ : Ledger).heldPorts) :=
  List.perm_middle.flatMap_right Reservation.ports

/-- The owners depend on the live tasks only. -/
theorem heldPorts_congr (h : (s.tasks.filter fun t => !t.isTerminal).map Task.holding =
    (s'.tasks.filter fun t => !t.isTerminal).map Task.holding) :
    (⟨s, ps, ls⟩ : Ledger).heldPorts = (⟨s', ps, ls'⟩ : Ledger).heldPorts := by
  unfold heldPorts owners
  rw [h]

/-- The ports of a live task, when its record is taken out or ends. -/
theorem heldPorts_split {xs ys : List Task} {t : Task} (hs : s.tasks = xs ++ t :: ys) (ht : t.isTerminal = false)
    (hs' : (s'.tasks.filter fun t => !t.isTerminal) = (xs ++ ys).filter fun t => !t.isTerminal) :
    (⟨s, ps, ls⟩ : Ledger).heldPorts.Perm
      (t.holding.httpPort :: t.holding.localPort :: (⟨s', ps, ls'⟩ : Ledger).heldPorts) := by
  have hp : (⟨s, ps, ls⟩ : Ledger).owners.Perm (t.holding :: (⟨s', ps, ls'⟩ : Ledger).owners) := by
    simp only [owners, hs, hs', List.filter_append, List.filter_cons, ht, Bool.not_false, ↓reduceIte, List.map_append,
      List.map_cons, List.append_assoc, List.cons_append]
    exact List.perm_middle
  exact hp.flatMap_right Reservation.ports

theorem sound_initial (c : SupervisorSettings) : Sound c ⟨.initial c, [], []⟩ where
  holds := PortPool.holds_ofSize c.basePort c.portPoolSize.toNat
  extent := ⟨rfl, by simp [SupervisorState.initial, PortPool.capacity, PortPool.ofSize]⟩
  ids := List.nodup_nil
  pending := .refl _
  launching := List.nodup_nil
  recorded := nofun

namespace Sound

theorem perm (h : Sound c ⟨s, ps, ls⟩) (hp : ps.Perm ps') (hl : ls.Perm ls') : Sound c ⟨s, ps', ls'⟩ where
  holds := h.holds.perm (heldPorts_perm hp)
  extent := h.extent
  ids := ((hp.map _).append_left _).nodup_iff.1 h.ids
  pending := h.pending.trans (hp.map _)
  launching := (hl.map _).nodup_iff.1 h.launching
  recorded := fun r hr => h.recorded r (hl.mem_iff.2 hr)

theorem nodup_tasks (h : Sound c ⟨s, ps, ls⟩) : (s.tasks.map Task.id).Nodup := (List.nodup_append.1 h.ids).1

/-- A pending run has no record. -/
theorem find?_eq_none (h : Sound c ⟨s, ps, ls⟩) (hr : r ∈ ps) : s.find? r.taskId = none :=
  SupervisorState.find?_eq_none_iff.2 fun t ht he =>
    (List.nodup_append.1 h.ids).2.2 t.id (List.mem_map_of_mem ht) r.taskId (List.mem_map_of_mem hr) he

theorem reserve (h : Sound c ⟨s, ps, ls⟩) {draws : List TaskId} {probes : Probe × Probe}
    (hr : s.reserve c draws probes = (.ok r, s')) : Sound c ⟨s', r :: ps, ls⟩ := by
  obtain ⟨-, ⟨q, hq, hq'⟩, hfresh, htasks, hpending⟩ := SupervisorState.reserve_ok hr
  obtain ⟨hnone, hnew⟩ := SupervisorState.isFresh_eq_true_iff.1 hfresh
  have hnone' := SupervisorState.find?_eq_none_iff.1 hnone
  constructor
  · have hsame : (⟨s', ps, ls⟩ : Ledger).heldPorts = (⟨s, ps, ls⟩ : Ledger).heldPorts :=
      heldPorts_congr (by rw [htasks])
    have hheld : s'.pool.Holds (r.localPort :: r.httpPort :: (⟨s', ps, ls⟩ : Ledger).heldPorts) :=
      hsame ▸ (h.holds.acquire hq).acquire hq'
    exact hheld.perm ((List.Perm.swap _ _ _).trans (heldPorts_cons s' r ps ls).symm)
  · obtain ⟨hb, hc⟩ := PortPool.extent_of_acquire? hq
    obtain ⟨hb', hc'⟩ := PortPool.extent_of_acquire? hq'
    exact ⟨hb'.trans (hb.trans h.extent.1), hc'.trans (hc.trans h.extent.2)⟩
  · have hmiddle : (s.tasks.map Task.id ++ r.taskId :: ps.map Reservation.taskId).Nodup := by
      refine (List.perm_middle.nodup_iff).2 (List.nodup_cons.2 ⟨fun hm => ?_, h.ids⟩)
      rcases List.mem_append.1 hm with hm | hm
      · obtain ⟨t, ht, he⟩ := List.mem_map.1 hm
        exact hnone' t ht he
      · exact hnew (h.pending.mem_iff.2 hm)
    simpa [htasks] using hmiddle
  · simpa [hpending] using h.pending.cons r.taskId
  · exact h.launching
  · simpa [htasks] using h.recorded

theorem release (h : Sound c ⟨s, r :: ps, ls⟩) : Sound c ⟨s.release r, ps, ls⟩ := by
  have hids : (s.tasks.map Task.id ++ r.taskId :: ps.map Reservation.taskId).Nodup := h.ids
  have hnew : r.taskId ∉ ps.map Reservation.taskId := (List.nodup_cons.1 (List.nodup_append.1 hids).2.1).1
  constructor
  · exact (h.holds.perm (heldPorts_cons s r ps ls)).release.release
  · simpa [SupervisorState.release] using h.extent
  · exact hids.sublist ((List.sublist_cons_self _ _).append_left _)
  · have hp := h.pending.filter fun id => id != r.taskId
    have hkeep : (ps.map Reservation.taskId).filter (fun id => id != r.taskId) = ps.map Reservation.taskId :=
      List.filter_eq_self.2 fun id hid => by simpa using fun he : id = r.taskId => hnew (he ▸ hid)
    simpa [hkeep, SupervisorState.release] using hp
  · exact h.launching
  · exact h.recorded

theorem register (h : Sound c ⟨s, r :: ps, ls⟩) {t : Task} (ht : t.holding = r) (hlive : t.isTerminal = false) :
    Sound c ⟨s.register r t, ps, r :: ls⟩ := by
  have hid : t.id = r.taskId := ht ▸ rfl
  have hnone : s.find? r.taskId = none := h.find?_eq_none List.mem_cons_self
  have htasks : (s.register r t).tasks = s.tasks ++ [t] := SupervisorState.tasks_register r (by rw [hid, hnone])
  constructor
  · have hheld : (⟨s.register r t, ps, r :: ls⟩ : Ledger).heldPorts = (⟨s, r :: ps, ls⟩ : Ledger).heldPorts := by
      unfold heldPorts owners
      simp [htasks, hlive, ht]
    rw [hheld]
    exact h.holds
  · exact h.extent
  · have hids := h.ids
    simpa [htasks, hid] using hids
  · exact h.release.pending
  · refine List.nodup_cons.2 ⟨fun hm => ?_, h.launching⟩
    obtain ⟨r', hr', he⟩ := List.mem_map.1 hm
    obtain ⟨u, hu, rfl⟩ := h.recorded r' hr'
    exact SupervisorState.find?_eq_none_iff.1 hnone u hu he
  · intro r' hr'
    simp only [htasks]
    rcases List.mem_cons.1 hr' with rfl | hr'
    · exact ⟨t, by simp, ht⟩
    · obtain ⟨u, hu, he⟩ := h.recorded r' hr'
      exact ⟨u, List.mem_append_left _ hu, he⟩

theorem launched (h : Sound c ⟨s, ps, r :: ls⟩) : Sound c ⟨s, ps, ls⟩ where
  holds := h.holds
  extent := h.extent
  ids := h.ids
  pending := h.pending
  launching := (List.nodup_cons.1 h.launching).2
  recorded := fun r' hr' => h.recorded r' (List.mem_cons_of_mem r hr')

/-- The record of a run that is being launched holds the ports that were reserved for it. -/
theorem holding_of_find? (h : Sound c ⟨s, ps, ls⟩) (hr : r ∈ ls) {t : Task} (ht : s.find? r.taskId = some t) :
    t.holding = r := by
  obtain ⟨u, hu, rfl⟩ := h.recorded r hr
  have hfind := SupervisorState.find?_of_mem h.nodup_tasks hu
  have he : u = t := Option.some.inj (hfind.symm.trans ht)
  rw [he]

/-- A launch that failed: a live task is taken back with its ports, one that has ended stays as it is. -/
theorem takeBack (h : Sound c ⟨s, ps, r :: ls⟩) : Sound c ⟨s.abandon r, ps, ls⟩ := by
  unfold SupervisorState.abandon
  split
  · rename_i hlive
    obtain ⟨t, ht, hend⟩ := SupervisorState.isLive_eq_true_iff.1 hlive
    have hold : t.holding = r := h.holding_of_find? List.mem_cons_self ht
    obtain ⟨xs, ys, hs, hne⟩ := SupervisorState.tasks_eq_of_find? h.nodup_tasks ht
    have hid : t.id = r.taskId := (SupervisorState.find?_mem ht).2
    have hrest : (s.tasks.filter fun u => u.id != r.taskId) = xs ++ ys := by
      have hkeep : (xs ++ ys).filter (fun u => u.id != t.id) = xs ++ ys :=
        List.filter_eq_self.2 fun u hu => by simpa using hne u hu
      rw [hs, ← hid, List.filter_append, List.filter_cons_of_neg (by simp), ← List.filter_append, hkeep]
    rw [hrest]
    have hids : (s.tasks.map Task.id ++ ps.map Reservation.taskId).Nodup := h.ids
    constructor
    · have hp : (⟨s, ps, r :: ls⟩ : Ledger).heldPorts.Perm (t.holding.httpPort :: t.holding.localPort ::
          (⟨{ s with tasks := xs ++ ys }, ps, ls⟩ : Ledger).heldPorts) := heldPorts_split hs hend rfl
      rw [hold] at hp
      exact (h.holds.perm hp).release.release
    · simpa [SupervisorState.release] using h.extent
    · have hsub : (xs ++ ys).Sublist s.tasks := hs ▸ (List.sublist_cons_self t ys).append_left xs
      exact hids.sublist ((hsub.map Task.id).append_right _)
    · have hmem : r.taskId ∈ s.tasks.map Task.id := hid ▸ List.mem_map_of_mem (SupervisorState.find?_mem ht).1
      have hkeep : s.pending.filter (fun id => id != r.taskId) = s.pending :=
        List.filter_eq_self.2 fun id hp => by
          have hp' : id ∈ ps.map Reservation.taskId := h.pending.mem_iff.1 hp
          simpa using fun he : id = r.taskId => (List.nodup_append.1 hids).2.2 _ hmem id hp' he.symm
      simpa [SupervisorState.release, hkeep] using h.pending
    · exact (List.nodup_cons.1 h.launching).2
    · intro r' hr'
      obtain ⟨u, hu, rfl⟩ := h.recorded r' (List.mem_cons_of_mem r hr')
      have hu' : u ∈ xs ++ t :: ys := hs ▸ hu
      refine ⟨u, ?_, rfl⟩
      rcases List.mem_cons.1 (List.perm_middle.mem_iff.1 hu') with rfl | hm
      · exact absurd (hold ▸ List.mem_map_of_mem hr') (List.nodup_cons.1 h.launching).1
      · exact hm
  · exact h.launched

theorem report (h : Sound c ⟨s, ps, ls⟩) {report : StatusReport} {time : Int64} {t : Task}
    (ht : s.applyReport report time = .ok (t, s')) : Sound c ⟨s', ps, ls⟩ := by
  obtain ⟨u, hu, hmove, rfl, hpool, htasks, hpending⟩ := SupervisorState.applyReport_ok ht
  obtain ⟨xs, ys, hs, hne⟩ := SupervisorState.tasks_eq_of_find? h.nodup_tasks hu
  have hlive : u.isTerminal = false := (TaskStatus.canMoveTo_eq_true_iff.1 hmove).1
  have hid : u.id = (SupervisorState.amend u report time).id := rfl
  rw [hs, SupervisorState.replace_eq hid hne] at htasks
  have hids : s'.tasks.map Task.id = s.tasks.map Task.id := by simp [htasks, hs, SupervisorState.amend]
  constructor
  · by_cases hend : (SupervisorState.amend u report time).isTerminal = true
    · have hrest : (s'.tasks.filter fun t => !t.isTerminal) = (xs ++ ys).filter fun t => !t.isTerminal := by
        simp [htasks, hend]
      have hp : (⟨s, ps, ls⟩ : Ledger).heldPorts.Perm
          (u.holding.httpPort :: u.holding.localPort :: (⟨s', ps, ls⟩ : Ledger).heldPorts) :=
        heldPorts_split hs hlive hrest
      rw [hpool, SupervisorState.settlePorts, if_pos hend]
      exact (h.holds.perm hp).release.release
    · have hold : (SupervisorState.amend u report time).holding = u.holding := rfl
      have hsame : (⟨s', ps, ls⟩ : Ledger).heldPorts = (⟨s, ps, ls⟩ : Ledger).heldPorts :=
        heldPorts_congr (by simp [htasks, hs, hend, hlive, hold])
      rw [hsame, hpool, SupervisorState.settlePorts, if_neg hend]
      exact h.holds
  · rw [hpool]
    unfold SupervisorState.settlePorts
    split
    · simpa using h.extent
    · exact h.extent
  · show (s'.tasks.map Task.id ++ _).Nodup
    rw [hids]
    exact h.ids
  · rw [hpending]
    exact h.pending
  · exact h.launching
  · intro r hr
    obtain ⟨v, hv, rfl⟩ := h.recorded r hr
    have hv' : v ∈ xs ++ u :: ys := hs ▸ hv
    simp only [htasks]
    rcases List.mem_cons.1 (List.perm_middle.mem_iff.1 hv') with rfl | hm
    · exact ⟨SupervisorState.amend v report time, by simp, rfl⟩
    · exact ⟨v, List.perm_middle.mem_iff.2 (List.mem_cons_of_mem _ hm), rfl⟩

/-- **Every move keeps the ledger sound.** -/
theorem move {times : Int64 → Prop} {taken : Option Reservation} {L L' : Ledger} (h : Sound c L)
    (hm : Move c times taken L L') : Sound c L' := by
  cases hm with
  | still hp hl => exact h.perm hp hl
  | reserve hr => exact h.reserve hr
  | release hp hl => exact (h.perm hp hl).release
  | register hp hl hh =>
    refine ((h.perm hp (.refl _)).register ?_ rfl).perm (.refl _) hl.symm
    simp only [Task.holding, Task.ofHeader, hh]
  | launched hp hl => exact (h.perm hp hl).launched
  | takeBack hp hl => exact (h.perm hp hl).takeBack
  | report hp hl _ ht => exact (h.report ht).perm hp hl

end Sound

end Ledger

/-! ## Every interleaving -/

namespace System

variable {τ : Type} {c : SupervisorSettings}

theorem sound_step {S : System τ} (h : S.ledger.Sound S.supervisor.settings) (a : Action) :
    (S.step a).ledger.Sound S.supervisor.settings := by
  obtain ⟨_, hm, -⟩ := step_move (S := S) (fun _ => True) (fun _ _ _ => trivial) a
  exact h.move hm

theorem sound_run_of_sound {S : System τ} (h : S.ledger.Sound S.supervisor.settings) (actions : List Action) :
    (S.run actions).ledger.Sound (S.run actions).supervisor.settings := by
  refine run_induction (P := fun T => T.ledger.Sound T.supervisor.settings) (fun T a _ hT => ?_) h
  rw [settings_step]
  exact sound_step hT a

theorem sound_run (c : SupervisorSettings) (w : Workshop) (store : TraceStore τ) (traces : τ)
    (packages : Option PackageManager) (actions : List Action) :
    ((System.initial c w store traces packages).run actions).ledger.Sound c := by
  have h : let S := (System.initial c w store traces packages).run actions
      S.supervisor.settings = c ∧ S.ledger.Sound c :=
    run_induction (P := fun S => S.supervisor.settings = c ∧ S.ledger.Sound c)
      (fun S a _ ⟨hc, hs⟩ => ⟨by rw [settings_step, hc], hc ▸ sound_step (hc.symm ▸ hs) a⟩)
      ⟨rfl, Ledger.sound_initial c⟩
  exact h.2

/-- **Every port has one owner**, after every interleaving of runs, reports, failed launches and exits. The ports that
are taken are those of the live tasks and of the runs without a record. The two ports of an owner differ and belong to
the pool, and two owners share none. What is pending are the runs without a record, none of which has the number of
another run or of a task; so a record is never overwritten when a run gets its own. -/
theorem ports_have_one_owner (c : SupervisorSettings) (w : Workshop) (store : TraceStore τ) (traces : τ)
    (packages : Option PackageManager) (actions : List Action) :
    let S := (System.initial c w store traces packages).run actions
    let state := S.supervisor.state
    (∀ port, state.pool.isTaken port = true ↔ ∃ o ∈ S.ledger.owners, port = o.httpPort ∨ port = o.localPort) ∧
      (∀ o ∈ S.ledger.owners, o.httpPort ≠ o.localPort ∧ ∀ port ∈ o.ports, c.basePort.toNat < port.toNat ∧
        port.toNat ≤ c.basePort.toNat + min c.portPoolSize.toNat (65535 - c.basePort.toNat)) ∧
      S.ledger.owners.Pairwise (fun o o' => o.ports.Disjoint o'.ports) ∧
      state.pending.Perm (S.ledger.preparing.map Reservation.taskId) ∧
      (state.tasks.map Task.id ++ state.pending).Nodup ∧
      ∀ (i : Nat) request r, S.activities[i]? = some (.preparing request r) →
        state.find? r.taskId = none ∧ ∀ t, t.id = r.taskId → (state.register r t).tasks = state.tasks ++ [t] := by
  intro S state
  have h : S.ledger.Sound c := sound_run c w store traces packages actions
  have htaken : ∀ port, state.pool.isTaken port = true ↔ ∃ o ∈ S.ledger.owners, port ∈ o.ports := fun port =>
    (h.holds.isTaken_iff port).trans List.mem_flatMap
  obtain ⟨hown, hdisjoint⟩ := List.nodup_flatMap.1 h.holds.nodup
  refine ⟨fun port => ?_, fun o ho => ⟨?_, fun port hp => ?_⟩, hdisjoint, h.pending, ?_, fun i request r hi => ?_⟩
  · simpa [Reservation.ports] using htaken port
  · simpa [Reservation.ports] using hown o ho
  · have hrange := PortPool.toNat_of_isTaken ((htaken port).2 ⟨o, ho, hp⟩)
    have hbase : state.pool.base = c.basePort := h.extent.1
    have hcapacity : state.pool.capacity = _ := h.extent.2
    rwa [hbase, hcapacity] at hrange
  · exact (h.pending.append_left _).nodup_iff.2 h.ids
  · have hr : r ∈ S.ledger.preparing := List.mem_filterMap.2 ⟨_, List.mem_of_getElem? hi, rfl⟩
    have hnone : state.find? r.taskId = none := h.find?_eq_none hr
    exact ⟨hnone, fun t ht => SupervisorState.tasks_register r (by rw [ht]; exact hnone)⟩

end System

end ScriptRunner
