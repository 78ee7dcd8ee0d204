import ScriptRunner.Proofs.Document.Outcomes
import ScriptRunner.Proofs.Supervisor.Interleaving

/-!
# What the caller of a run is told

A run is answered where it fails or where its launch ends (`System.runAnswer?`). A refusal comes from one of three
places: the reservation, the preparation or the launcher (`runAnswer?_error`); a run that nothing interrupts is refused
in the same places (`Supervisor.runScript_error`).
-/

namespace ScriptRunner

/-! ## Where a preparation fails -/

namespace Workshop

variable {w : Workshop} {c : SupervisorSettings} {request : RunRequest} {r : Reservation} {e : SupervisorError}

theorem runnableScript_error (h : w.runnableScript request = .error e) :
    e = .scriptNotFound request.script ∨ (∃ name role, e = .accessDenied name role) ∨ ∃ name, e = .unrunnable name := by
  unfold runnableScript at h
  split at h
  · exact .inl (Except.error.inj h).symm
  · split at h
    · exact .inr (.inl ⟨_, _, (Except.error.inj h).symm⟩)
    · split at h
      · exact .inr (.inr ⟨_, (Except.error.inj h).symm⟩)
      · cases h

/-- A preparation fails because of the script, its program or the engine. -/
theorem prepare_error (h : w.prepare c request r = .error e) :
    e = .scriptNotFound request.script ∨ (∃ name role, e = .accessDenied name role) ∨ (∃ name, e = .unrunnable name) ∨
      (∃ fault, e = .compile fault) ∨ ∃ fault, e = .engine fault := by
  rcases bind_eq_error_iff.1 h with hd | ⟨d, -, h⟩
  · rcases runnableScript_error hd with hs | hs | hs
    · exact .inl hs
    · exact .inr (.inl hs)
    · exact .inr (.inr (.inl hs))
  · rcases bind_eq_error_iff.1 h with hc | ⟨text, -, h⟩
    · obtain ⟨fault, -, rfl⟩ := mapError_eq_error_iff.1 hc
      exact .inr (.inr (.inr (.inl ⟨fault, rfl⟩)))
    · rcases bind_eq_error_iff.1 h with hb | ⟨program, -, h⟩
      · obtain ⟨fault, -, rfl⟩ := mapError_eq_error_iff.1 hb
        exact .inr (.inr (.inr (.inr ⟨fault, rfl⟩)))
      · cases h

theorem prepare_ne_limitExceeded (n : UInt64) : w.prepare c request r ≠ .error (.limitExceeded n) := by
  intro h
  rcases prepare_error h with h | ⟨_, _, h⟩ | ⟨_, h⟩ | ⟨_, h⟩ | ⟨_, h⟩ <;> cases h

end Workshop

/-! ## A run without interruption -/

namespace Supervisor

variable {τ : Type} {s : Supervisor τ} {launch : Launch τ} {request : RunRequest} {draws : List TaskId} {now : Int64}
  {probes : Probe × Probe} {e : SupervisorError}

/-- A run is refused by the reservation, by the preparation or by the launcher, and each refusal leaves its own trace. -/
theorem runScript_error (h : (s.runScript launch request draws now probes).1 = .error e) :
    (s.state.reserve s.settings draws probes = (.error e, s.state) ∧
        (s.runScript launch request draws now probes).2 = s) ∨
      ∃ r state, s.state.reserve s.settings draws probes = (.ok r, state) ∧
        ((s.workshop.prepare s.settings request r = .error e ∧
            (s.runScript launch request draws now probes).2 = { s with state := state.release r }) ∨
          ∃ header program, s.workshop.prepare s.settings request r = .ok (header, program) ∧
            let registered := { s with state := state.register r (.ofHeader header now) }
            let after := (launch header program registered).2
            (launch header program registered).1 = .error e ∧
              (s.runScript launch request draws now probes).2 = { after with state := after.state.abandon r }) := by
  unfold runScript beginRun at h ⊢
  rcases hr : s.state.reserve s.settings draws probes with ⟨e' | r, state⟩
  · simp only [hr] at h ⊢
    obtain rfl := Except.error.inj h
    obtain rfl := SupervisorState.reserve_error hr
    exact .inl ⟨rfl, rfl⟩
  · simp only [hr] at h ⊢
    refine .inr ⟨r, state, rfl, ?_⟩
    cases hp : s.workshop.prepare s.settings request r with
    | error e' =>
      simp only [hp] at h ⊢
      obtain rfl := Except.error.inj h
      exact .inl ⟨rfl, trivial⟩
    | ok v =>
      obtain ⟨header, program⟩ := v
      simp only [hp] at h ⊢
      refine .inr ⟨header, program, rfl, ?_⟩
      cases hl : (launch header program { s with state := state.register r (.ofHeader header now) }).1 with
      | ok _ => simp [hl, finishRun] at h
      | error e' =>
        simp only [hl, finishRun] at h ⊢
        obtain rfl := Except.error.inj h
        exact ⟨rfl, trivial⟩

end Supervisor

/-! ## A run among other calls -/

namespace System

variable {τ : Type} {S : System τ} {refusal e : SupervisorError} {a : Action}

/-- What the caller of a run is told at an action, if the call comes to its end there. The launcher says `refusal` of a
process that it cannot start. -/
def runAnswer? (S : System τ) (refusal : SupervisorError) : Action → Option (Except SupervisorError RunOutcome)
  | .run _ draws probes =>
    match S.supervisor.state.reserve S.supervisor.settings draws probes with
    | (.error e, _) => some (.error e)
    | (.ok _, _) => none
  | .proceed i _ =>
    match S.activities[i]? with
    | some (.preparing request r) =>
      match S.supervisor.workshop.prepare S.supervisor.settings request r with
      | .error e => some (.error e)
      | .ok _ => none
    | some (.launching l) => some (S.supervisor.finishRun l (.ok ())).1
    | _ => none
  | .failLaunch i =>
    match S.activities[i]? with
    | some (.launching l) => some (S.supervisor.finishRun l (.error refusal)).1
    | _ => none
  | _ => none

/-- Where a run may be refused. -/
inductive Refused (S : System τ) (refusal : SupervisorError) : Action → SupervisorError → Prop
  | reserving {request draws probes e}
      (h : S.supervisor.state.reserve S.supervisor.settings draws probes = (.error e, S.supervisor.state)) :
      Refused S refusal (.run request draws probes) e
  | preparing {i now request r e} (hi : S.activities[i]? = some (.preparing request r))
      (h : S.supervisor.workshop.prepare S.supervisor.settings request r = .error e) : Refused S refusal (.proceed i now) e
  | launching {i l} (hi : S.activities[i]? = some (.launching l)) : Refused S refusal (.failLaunch i) refusal

theorem runAnswer?_error : S.runAnswer? refusal a = some (.error e) ↔ S.Refused refusal a e := by
  constructor
  · intro h
    cases a with
    | run request draws probes =>
      simp only [runAnswer?] at h
      split at h
      · rename_i hr
        cases h
        exact .reserving (SupervisorState.reserve_error hr ▸ hr)
      · cases h
    | proceed i now =>
      simp only [runAnswer?] at h
      split at h
      · rename_i request r hi
        split at h
        · rename_i hp
          cases h
          exact .preparing hi hp
        · cases h
      · cases h
      · cases h
    | failLaunch i =>
      simp only [runAnswer?] at h
      split at h
      · rename_i l hi
        cases h
        exact .launching hi
      · cases h
    | report | exit | attend | command | package => cases h
  · intro h
    cases h with
    | reserving h => simp [runAnswer?, h]
    | preparing hi h => simp [runAnswer?, hi, h]
    | launching hi => simp [runAnswer?, hi, Supervisor.finishRun]

end System

/-! ## A workshop with one script -/

namespace Sample

/-- A script that does nothing. -/
def job : Script.Definition :=
  { name := "job", title := "", kind := .template, params := [], body := "", tree := [], titles := .empty,
    unrunnable := false, role := none }

def workshop : Workshop := ⟨.ofList [job], fun _ _ => true, ⟨[]⟩, fun _ => .ok ⟨"text", []⟩⟩

def request (script : String) : RunRequest := ⟨script, none, 0, 0, .empty, .null, false, .empty⟩

def settings : SupervisorSettings := ⟨43000, 8, false, 0, "en", 43000, none⟩

end Sample

end ScriptRunner
