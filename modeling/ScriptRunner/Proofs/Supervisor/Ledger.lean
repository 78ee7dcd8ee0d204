import Mathlib.Data.List.Perm.Basic
import ScriptRunner.Proofs.Supervisor.Interleaving

/-!
# The ledger of a system

Of the calls under way, only the reservations of runs bear on tasks and ports. The ledger keeps these beside the state,
and every action is one of seven moves of the ledger (`step_move_of_applied`); lists of reservations are compared up to
their order. What an action does to the rest of the supervisor is said by `supervisor_step`.
-/

namespace ScriptRunner

/-- The state with the reservations of the runs that have no record yet, and of those that are being launched. -/
structure Ledger where
  state : SupervisorState
  preparing : List Reservation
  launching : List Reservation

namespace Ledger

/-- What an action may do to a ledger: `times` are the times with which reports may be applied. The reservation of a run
whose launch fails is named. -/
inductive Move (c : SupervisorSettings) (times : Int64 → Prop) : Option Reservation → Ledger → Ledger → Prop
  | still {s ps ps' ls ls'} (hp : ps.Perm ps') (hl : ls.Perm ls') : Move c times none ⟨s, ps, ls⟩ ⟨s, ps', ls'⟩
  | reserve {s s' ps ls draws probes r} (h : s.reserve c draws probes = (.ok r, s')) :
      Move c times none ⟨s, ps, ls⟩ ⟨s', r :: ps, ls⟩
  | release {s ps ps' ls ls' r} (hp : ps.Perm (r :: ps')) (hl : ls.Perm ls') :
      Move c times none ⟨s, ps, ls⟩ ⟨s.release r, ps', ls'⟩
  | register {s ps ps' ls ls' r header now} (hp : ps.Perm (r :: ps')) (hl : ls'.Perm (r :: ls))
      (hh : header.taskId = r.taskId ∧ header.httpPort = r.httpPort ∧ header.localPort = r.localPort) :
      Move c times none ⟨s, ps, ls⟩ ⟨s.register r (.ofHeader header now), ps', ls'⟩
  | launched {s ps ps' ls ls' r} (hp : ps.Perm ps') (hl : ls.Perm (r :: ls')) :
      Move c times none ⟨s, ps, ls⟩ ⟨s, ps', ls'⟩
  | takeBack {s ps ps' ls ls' r} (hp : ps.Perm ps') (hl : ls.Perm (r :: ls')) :
      Move c times (some r) ⟨s, ps, ls⟩ ⟨s.abandon r, ps', ls'⟩
  | report {s s' ps ps' ls ls' report time t} (hp : ps.Perm ps') (hl : ls.Perm ls') (ht : times time)
      (h : s.applyReport report time = .ok (t, s')) : Move c times none ⟨s, ps, ls⟩ ⟨s', ps', ls'⟩

end Ledger

def Activity.reserved? : Activity → Option Reservation
  | preparing _ r => some r
  | _ => none

def Activity.launched? : Activity → Option Reservation
  | launching l => some l.reservation
  | _ => none

namespace System

variable {τ : Type} {S : System τ} {i : Nat} {a : Activity}

def ledger (S : System τ) : Ledger where
  state := S.supervisor.state
  preparing := S.activities.filterMap Activity.reserved?
  launching := S.activities.filterMap Activity.launched?

/-! ## One activity among the others -/

section Places

variable {β : Type} (f : Activity → Option β)

theorem perm_eraseIdx {as : List Activity} (h : as[i]? = some a) :
    (as.filterMap f).Perm ((f a).toList ++ (as.eraseIdx i).filterMap f) := by
  obtain ⟨hi, rfl⟩ := List.getElem?_eq_some_iff.1 h
  have hp := ((List.getElem_cons_eraseIdx_perm hi).symm).filterMap f
  cases hf : f as[i] <;> simpa [hf] using hp

theorem perm_set {as : List Activity} (h : as[i]? = some a) (b : Activity) :
    ((as.set i b).filterMap f).Perm ((f b).toList ++ (as.eraseIdx i).filterMap f) := by
  obtain ⟨hi, -⟩ := List.getElem?_eq_some_iff.1 h
  have hp := (List.set_perm_cons_eraseIdx hi b).filterMap f
  cases hf : f b <;> simpa [hf] using hp

/-- An activity that makes way for one that counts the same leaves the list the same up to its order. -/
theorem perm_set_of_eq {as : List Activity} (h : as[i]? = some a) {b : Activity} (hf : f a = f b) :
    (as.filterMap f).Perm ((as.set i b).filterMap f) :=
  (perm_eraseIdx f h).trans (hf ▸ (perm_set f h b).symm)

end Places

variable (times : Int64 → Prop)

/-- An activity without a reservation that comes to its end changes nothing but the state. -/
theorem ledger_finish_of_none (h : S.activities[i]? = some a) (hr : a.reserved? = none) (hl : a.launched? = none)
    (s : SupervisorState) :
    S.ledger.preparing.Perm (S.finish i s).ledger.preparing ∧
      S.ledger.launching.Perm (S.finish i s).ledger.launching := by
  have hp := perm_eraseIdx Activity.reserved? h
  have hq := perm_eraseIdx Activity.launched? h
  rw [hr] at hp
  rw [hl] at hq
  exact ⟨hp, hq⟩

/-! ## Actions are moves -/

theorem proceed_move (now : Int64)
    (ht : ∀ report time, S.activities[i]? = some (.reporting report time) → times time) :
    Ledger.Move S.supervisor.settings times none S.ledger (S.proceed i now).ledger := by
  unfold proceed
  split
  · exact .still (.refl _) (.refl _)
  · rename_i request r h
    have hp : S.ledger.preparing.Perm _ := perm_eraseIdx Activity.reserved? h
    have hl : S.ledger.launching.Perm _ := perm_eraseIdx Activity.launched? h
    cases hw : S.supervisor.workshop.prepare S.supervisor.settings request r with
    | error e => exact .release hp hl
    | ok v =>
      obtain ⟨header, program⟩ := v
      have hp' := perm_set Activity.reserved? h (.launching ⟨r, header, program⟩)
      have hl' := perm_set Activity.launched? h (.launching ⟨r, header, program⟩)
      exact .register (hp.trans (hp'.symm.cons r)) (hl'.trans (hl.symm.cons r)) (Workshop.prepare_ok hw)
  · rename_i l h
    exact .launched (r := l.reservation) (perm_eraseIdx Activity.reserved? h) (perm_eraseIdx Activity.launched? h)
  · rename_i report time h
    cases hs : S.supervisor.state.applyReport report time with
    | error e =>
      obtain ⟨hp, hl⟩ := ledger_finish_of_none h rfl rfl S.supervisor.state
      exact .still hp hl
    | ok v =>
      exact .report (perm_set_of_eq _ h rfl) (perm_set_of_eq _ h rfl) (ht _ _ h) hs
  · rename_i t time h
    exact .still (perm_set_of_eq _ h rfl) (perm_set_of_eq _ h rfl)
  · rename_i t time h
    obtain ⟨hp, hl⟩ := ledger_finish_of_none h rfl rfl S.supervisor.state
    exact .still hp hl

/-- **Every action is a move of the ledger**; only a failed launch names a reservation, that of a run being launched. The
times that count are those of reports that the action applies. -/
theorem step_move_of_applied {a : Action}
    (ht : ∀ i now report time, a = .proceed i now → S.activities[i]? = some (.reporting report time) → times time) :
    ∃ taken, Ledger.Move S.supervisor.settings times taken S.ledger (S.step a).ledger ∧
      ∀ r, taken = some r → ∃ i l, a = .failLaunch i ∧ S.activities[i]? = some (.launching l) ∧ l.reservation = r := by
  have still : ∀ {T : System τ}, T.ledger = S.ledger → Ledger.Move S.supervisor.settings times none S.ledger T.ledger :=
    fun h => h ▸ .still (.refl _) (.refl _)
  cases a with
  | run request draws probes =>
    refine ⟨none, ?_, nofun⟩
    simp only [step]
    split
    · rename_i h
      obtain rfl := SupervisorState.reserve_error h
      exact still rfl
    · rename_i h
      exact .reserve h
  | report report now => exact ⟨none, still rfl, nofun⟩
  | exit id code now =>
    refine ⟨none, ?_, nofun⟩
    simp only [step]
    split <;> exact still rfl
  | proceed i now => exact ⟨none, proceed_move times now fun report time => ht i now report time rfl, nofun⟩
  | failLaunch i =>
    simp only [step]
    split
    · rename_i l h
      refine ⟨some l.reservation, ?_, fun r hr => ⟨i, l, rfl, h, Option.some.inj hr⟩⟩
      exact .takeBack (perm_eraseIdx Activity.reserved? h) (perm_eraseIdx Activity.launched? h)
    · exact ⟨none, still rfl, nofun⟩
  | attend change => exact ⟨none, still rfl, nofun⟩
  | command exchange id cmd value =>
    refine ⟨none, still ?_, nofun⟩
    simp only [step, Supervisor.sendCommand]
    split <;> rfl
  | package spawn id name =>
    refine ⟨none, still ?_, nofun⟩
    simp only [step, Supervisor.startPackage]
    split
    · rfl
    · split <;> rfl

/-- Of the times of all reports under way, those that count are some. -/
theorem step_move (ht : ∀ report time, Activity.reporting report time ∈ S.activities → times time) (a : Action) :
    ∃ taken, Ledger.Move S.supervisor.settings times taken S.ledger (S.step a).ledger ∧
      ∀ r, taken = some r → ∃ i l, a = .failLaunch i ∧ S.activities[i]? = some (.launching l) ∧ l.reservation = r :=
  step_move_of_applied times fun _ _ report time _ h => ht report time (List.mem_of_getElem? h)

/-! ## What an action does to the supervisor -/

/-- The action is not about the observers. -/
def Quiet (S : System τ) : Action → Prop
  | .attend _ => False
  | .proceed i _ => ∀ t time, S.activities[i]? ≠ some (.announcing t time)
  | _ => True

/-- An action is a change among the observers, keeps a record, announces a record, or does none of these and leaves the
trace store and the observers alone. -/
theorem supervisor_step (S : System τ) (a : Action) :
    (∃ change, a = .attend change ∧
        (S.step a).supervisor = { S.supervisor with observers := change.apply S.supervisor.observers }) ∨
      (∃ i now t time, a = .proceed i now ∧ S.activities[i]? = some (.recording t time) ∧
        (S.step a).supervisor = S.supervisor.keepTrace t) ∨
      (∃ i now t time, a = .proceed i now ∧ S.activities[i]? = some (.announcing t time) ∧
        (S.step a).supervisor = S.supervisor.announce t time) ∨
      S.Quiet a ∧ ∃ state packages lastExchange,
        (S.step a).supervisor = { S.supervisor with state, packages, lastExchange } := by
  cases a with
  | attend change => exact .inl ⟨change, rfl, rfl⟩
  | run request draws probes =>
    refine .inr (.inr (.inr ⟨trivial, ?_⟩))
    simp only [step]
    split <;> exact ⟨_, _, _, rfl⟩
  | report report now => exact .inr (.inr (.inr ⟨trivial, _, _, _, rfl⟩))
  | exit id code now =>
    refine .inr (.inr (.inr ⟨trivial, ?_⟩))
    simp only [step]
    split <;> exact ⟨_, _, _, rfl⟩
  | proceed i now =>
    simp only [step, proceed]
    cases hi : S.activities[i]? with
    | none => exact .inr (.inr (.inr ⟨by simp [Quiet, hi], _, _, _, rfl⟩))
    | some b =>
      cases b with
      | recording t time => exact .inr (.inl ⟨i, now, t, time, rfl, hi, rfl⟩)
      | announcing t time => exact .inr (.inr (.inl ⟨i, now, t, time, rfl, hi, rfl⟩))
      | launching l => exact .inr (.inr (.inr ⟨by simp [Quiet, hi], _, _, _, rfl⟩))
      | preparing | reporting =>
        refine .inr (.inr (.inr ⟨by simp [Quiet, hi], ?_⟩))
        dsimp only
        split <;> exact ⟨_, _, _, rfl⟩
  | failLaunch i =>
    refine .inr (.inr (.inr ⟨trivial, ?_⟩))
    simp only [step]
    split <;> exact ⟨_, _, _, rfl⟩
  | command exchange id cmd value =>
    refine .inr (.inr (.inr ⟨trivial, ?_⟩))
    simp only [step, Supervisor.sendCommand]
    split <;> exact ⟨_, _, _, rfl⟩
  | package spawn id name =>
    refine .inr (.inr (.inr ⟨trivial, ?_⟩))
    simp only [step, Supervisor.startPackage]
    split
    · exact ⟨_, _, _, rfl⟩
    · split <;> exact ⟨_, _, _, rfl⟩

theorem fixed_step (S : System τ) (a : Action) :
    (S.step a).supervisor.settings = S.supervisor.settings ∧ (S.step a).supervisor.store = S.supervisor.store := by
  rcases supervisor_step S a with ⟨_, -, h⟩ | ⟨_, _, _, _, -, -, h⟩ | ⟨_, _, _, _, -, -, h⟩ | ⟨-, _, _, _, h⟩ <;>
    rw [h] <;> exact ⟨rfl, rfl⟩

@[simp] theorem settings_step (S : System τ) (a : Action) : (S.step a).supervisor.settings = S.supervisor.settings :=
  (fixed_step S a).1

@[simp] theorem settings_run (S : System τ) (actions : List Action) :
    (S.run actions).supervisor.settings = S.supervisor.settings :=
  run_induction (P := fun T => T.supervisor.settings = S.supervisor.settings)
    (fun T a _ h => (settings_step T a).trans h) rfl

end System

end ScriptRunner
