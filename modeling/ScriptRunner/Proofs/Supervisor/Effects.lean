import ScriptRunner.Proofs.Supervisor.Deliveries

/-!
# The effects of reports

Here every report is taken to its end before anything else happens (`System.perform`); runs and their launches are still
spread over several actions. What an action does to the world outside of the records is noted as an effect
(`System.effects`): a report that is accepted, or a change among the observers.

The observers and the trace store see nothing but the effects: each accepted report is published once
(`observers_perform`), so that the mailbox of an observer gets one frame for it (`mail_performAll`), and kept once if it
ends its task (`traces_perform`). No task ends twice, and its record stays (`ended_performAll`).
-/

namespace ScriptRunner

/-- What the world outside of the records is told of. -/
inductive Effect where
  /-- A report about a time gave this record. -/
  | told (t : Task) (time : Int64)
  | attended (change : Attendance)

namespace Effect

/-- The observers after an effect. -/
def tell (b : Broadcaster) : Effect → Broadcaster
  | told t time => (b.publish (.ofTask t time)).2
  | attended change => change.apply b

/-- The update that the effect tells of. -/
def update? : Effect → Option Update
  | told t time => some ⟨t, time⟩
  | attended _ => none

/-- The record of a task that ends with the effect. -/
def ended? : Effect → Option Task
  | told t _ => if t.isTerminal then some t else none
  | attended _ => none

end Effect

namespace System

variable {τ τ' : Type} {S : System τ} {a : Action} {t : Task} {time : Int64}

/-! ## Reports one after the other -/

/-- The report that an action brings, with the reading of the clock. The end of a process is one if its task is live. -/
def brought? (S : System τ) : Action → Option (StatusReport × Int64)
  | .report report now => some (report, now)
  | .exit id code now => if S.supervisor.state.isLive id then some (Supervisor.exitReport id code now, now) else none
  | _ => none

/-- One action; a report that it brings is applied, kept and announced before anything else happens. -/
def perform (S : System τ) (a : Action) : System τ :=
  match S.brought? a with
  | some (report, now) => ⟨(S.supervisor.updateStatus report now).2, S.activities⟩
  | none => S.step a

def performAll (S : System τ) (actions : List Action) : System τ := actions.foldl perform S

theorem performAll_cons (S : System τ) (a : Action) (as : List Action) :
    S.performAll (a :: as) = (S.perform a).performAll as := rfl

/-- The end of a process is performed as the supervisor notes it. -/
theorem perform_exit (S : System τ) (id : TaskId) (code : Option Int32) (now : Int64) :
    S.perform (.exit id code now) = ⟨S.supervisor.childExited id code now, S.activities⟩ := by
  unfold perform brought? Supervisor.childExited
  by_cases h : S.supervisor.state.isLive id = true
  · simp only [h, ↓reduceIte]
  · simp only [step, h, ↓reduceIte, Bool.false_eq_true]

/-- What is performed is an interleaving. -/
theorem performAll_eq_run (S : System τ) (actions : List Action) :
    ∃ actions', S.run actions' = S.performAll actions := by
  induction actions generalizing S with
  | nil => exact ⟨[], rfl⟩
  | cons a as ih =>
    have hone : ∃ actions', S.run actions' = S.perform a := by
      unfold perform
      split
      · exact updateStatus_eq_run S.supervisor S.activities _ _
      · exact ⟨[a], rfl⟩
    obtain ⟨bs, hbs⟩ := hone
    obtain ⟨cs, hcs⟩ := ih (S.perform a)
    exact ⟨bs ++ cs, by rw [run_append, hbs, hcs, performAll_cons]⟩

end System

/-- The activity belongs to a run. -/
def Activity.isRun : Activity → Bool
  | preparing _ _ | launching _ => true
  | reporting _ _ | recording _ _ | announcing _ _ => false

namespace System

variable {τ τ' : Type} {S : System τ} {a : Action} {t : Task} {time : Int64}

/-- No report is under way. -/
def Settled (S : System τ) : Prop := ∀ b ∈ S.activities, b.isRun = true

/-- An action without a report starts none. -/
theorem settled_perform (hS : S.Settled) (a : Action) : (S.perform a).Settled := by
  unfold perform
  split
  · exact hS
  · rename_i hnone
    intro b hb
    rcases activities_of_step hb with hb | hb
    · exact hS b hb
    cases hb with
    | preparing | launching => rfl
    | reporting => cases hnone
    | exiting hlive => simp [brought?, hlive] at hnone
    | recording hi | announcing hi => cases hS _ (List.mem_of_getElem? hi)

/-! ## Effects -/

/-- What an action tells the world. -/
def effects (S : System τ) (a : Action) : List Effect :=
  match S.brought? a with
  | some (report, now) =>
    match (S.supervisor.updateStatus report now).1 with
    | .ok t => [.told t (report.effectiveTime now)]
    | .error _ => []
  | none =>
    match a with
    | .attend change => [.attended change]
    | _ => []

/-- What some actions tell the world, one after the other. -/
def history (S : System τ) : List Action → List Effect
  | [] => []
  | a :: as => S.effects a ++ (S.perform a).history as

/-- The records of the tasks that ended, in order. -/
def ended (S : System τ) (actions : List Action) : List Task := (S.history actions).filterMap Effect.ended?

/-- The updates that are published while some actions are performed, in order. -/
def published (S : System τ) (actions : List Action) : List Update := (S.history actions).filterMap Effect.update?

/-- What has been read out of a mailbox while some actions were performed, and then what waits there. -/
def mail (mailbox : Nat) (S : System τ) : List Action → List ObserverMessage
  | [] => S.supervisor.observers.waiting mailbox
  | a :: as => S.reads mailbox a ++ (S.perform a).mail mailbox as

end System

namespace Supervisor

variable {τ : Type} {s : Supervisor τ} {report : StatusReport} {now : Int64} {t : Task}

/-- A report that is accepted is kept if it ends the task, and published. -/
theorem updateStatus_ok (h : (s.updateStatus report now).1 = .ok t) :
    ∃ state, s.state.applyReport report (report.effectiveTime now) = .ok (t, state) ∧
      (s.updateStatus report now).2 = ({ s with state }.keepTrace t).announce t (report.effectiveTime now) := by
  cases hs : s.state.applyReport report (report.effectiveTime now) with
  | error e =>
    simp only [updateStatus, hs] at h
    cases h
  | ok v =>
    simp only [updateStatus, hs] at h ⊢
    obtain rfl := Except.ok.inj h
    exact ⟨v.2, rfl, rfl⟩

end Supervisor

namespace System

variable {τ : Type} {S : System τ} {a : Action} {t : Task} {time : Int64}

/-- Without a report the trace store is left alone, and so are the observers, but for changes among them. -/
theorem step_of_not_brought (hS : S.Settled) (h : S.brought? a = none) :
    (S.step a).supervisor.traces = S.supervisor.traces ∧
      (S.step a).supervisor.observers = (S.effects a).foldl Effect.tell S.supervisor.observers := by
  rcases supervisor_step S a with ⟨change, rfl, hafter⟩ | ⟨i, now, t, time, -, hi, -⟩ | ⟨i, now, t, time, -, hi, -⟩ |
      ⟨hquiet, state, packages, lastExchange, hafter⟩
  · rw [hafter]
    exact ⟨rfl, rfl⟩
  · cases hS _ (List.mem_of_getElem? hi)
  · cases hS _ (List.mem_of_getElem? hi)
  · have hnone : S.effects a = [] := by
      unfold effects
      rw [h]
      cases a with
      | attend change => exact hquiet.elim
      | run | report | exit | proceed | failLaunch | command | package => rfl
    rw [hafter, hnone]
    exact ⟨rfl, rfl⟩

/-- What an action with a report comes to: nothing if the report is refused, one effect if it is accepted. -/
theorem perform_of_brought {report : StatusReport} {now : Int64} (h : S.brought? a = some (report, now)) :
    (S.perform a = S ∧ S.effects a = []) ∨
      ∃ t state, S.supervisor.state.applyReport report (report.effectiveTime now) = .ok (t, state) ∧
        S.perform a = ⟨({ S.supervisor with state }.keepTrace t).announce t (report.effectiveTime now), S.activities⟩ ∧
        S.effects a = [.told t (report.effectiveTime now)] := by
  unfold perform effects
  rw [h]
  cases hu : (S.supervisor.updateStatus report now).1 with
  | error e =>
    refine .inl ⟨?_, by simp only [hu]⟩
    simp only [(Supervisor.updateStatus_error hu).1]
  | ok t =>
    obtain ⟨state, hs, hafter⟩ := Supervisor.updateStatus_ok hu
    refine .inr ⟨t, state, hs, ?_, by simp only [hu]⟩
    simp only [hafter]

theorem perform_of_not_brought (h : S.brought? a = none) : S.perform a = S.step a := by
  unfold perform
  rw [h]

theorem store_perform (S : System τ) (a : Action) : (S.perform a).supervisor.store = S.supervisor.store := by
  cases h : S.brought? a with
  | none => rw [perform_of_not_brought h, (fixed_step S a).2]
  | some b =>
    rcases perform_of_brought h with ⟨hp, -⟩ | ⟨t, state, -, hp, -⟩
    · rw [hp]
    · rw [hp]
      rfl

/-- **The observers are told of the effects**, of each one once. -/
theorem observers_perform (hS : S.Settled) (a : Action) :
    (S.perform a).supervisor.observers = (S.effects a).foldl Effect.tell S.supervisor.observers := by
  cases h : S.brought? a with
  | none => rw [perform_of_not_brought h, (step_of_not_brought hS h).2]
  | some b =>
    rcases perform_of_brought h with ⟨hp, he⟩ | ⟨t, state, -, hp, he⟩
    · rw [hp, he]
      rfl
    · rw [hp, he]
      rfl

/-- Without a report nobody is told of a record. -/
theorem ended_of_not_brought (h : S.brought? a = none) : (S.effects a).filterMap Effect.ended? = [] := by
  unfold effects
  rw [h]
  cases a <;> rfl

/-- **The trace store is asked to keep the records of the tasks that end**, each one once. -/
theorem traces_perform (hS : S.Settled) (a : Action) :
    (S.perform a).supervisor.traces =
      S.supervisor.store.recordAll S.supervisor.traces ((S.effects a).filterMap Effect.ended?) := by
  cases h : S.brought? a with
  | none =>
    rw [perform_of_not_brought h, (step_of_not_brought hS h).1, ended_of_not_brought h]
    rfl
  | some b =>
    rcases perform_of_brought h with ⟨hp, he⟩ | ⟨t, state, -, hp, he⟩
    · rw [hp, he]
      rfl
    · rw [hp, he]
      cases ht : t.isTerminal <;> simp [Effect.ended?, ht, TraceStore.recordAll, Supervisor.announce, Supervisor.keepTrace]

theorem observers_performAll (hS : S.Settled) (actions : List Action) :
    (S.performAll actions).supervisor.observers = (S.history actions).foldl Effect.tell S.supervisor.observers := by
  induction actions generalizing S with
  | nil => rfl
  | cons a as ih => rw [performAll_cons, ih (settled_perform hS a), observers_perform hS, history, List.foldl_append]

theorem traces_performAll (hS : S.Settled) (actions : List Action) :
    (S.performAll actions).supervisor.traces =
      S.supervisor.store.recordAll S.supervisor.traces (S.ended actions) := by
  induction actions generalizing S with
  | nil => rfl
  | cons a as ih =>
    rw [performAll_cons, ih (settled_perform hS a), traces_perform hS, store_perform, ended, ended, history,
      List.filterMap_append, TraceStore.recordAll, TraceStore.recordAll, TraceStore.recordAll, List.foldl_append]

/-! ## What a mailbox gets -/

theorem settled_performAll (hS : S.Settled) (actions : List Action) : (S.performAll actions).Settled := by
  induction actions generalizing S with
  | nil => exact hS
  | cons a as ih => exact ih (settled_perform hS a)

theorem sound_observers_performAll (h : S.supervisor.observers.Sound) (actions : List Action) :
    (S.performAll actions).supervisor.observers.Sound := by
  obtain ⟨actions', he⟩ := performAll_eq_run S actions
  exact he ▸ sound_observers_run h actions'

/-- An action is a change among the observers, or reads no mailbox and tells of one update at most. -/
theorem effects_cases (S : System τ) (a : Action) :
    (∃ change, a = .attend change ∧ S.effects a = [.attended change]) ∨
      (∀ mailbox, S.reads mailbox a = []) ∧ (S.effects a = [] ∨ ∃ t time, S.effects a = [.told t time]) := by
  cases hb : S.brought? a with
  | none =>
    unfold effects
    rw [hb]
    cases a with
    | attend change => exact .inl ⟨change, rfl, rfl⟩
    | run | report | exit | proceed | failLaunch | command | package => exact .inr ⟨fun _ => rfl, .inl rfl⟩
  | some b =>
    have hreads : ∀ mailbox, S.reads mailbox a = [] := by
      cases a with
      | attend change => cases hb
      | run | report | exit | proceed | failLaunch | command | package => exact fun _ => rfl
    rcases perform_of_brought hb with ⟨-, he⟩ | ⟨t, state, -, -, he⟩
    · exact .inr ⟨hreads, .inl he⟩
    · exact .inr ⟨hreads, .inr ⟨t, _, he⟩⟩

/-- A served observer gets the update that an action tells of. -/
theorem mail_perform {o : Observer} (hS : S.Settled) (h : S.supervisor.observers.Serves o) (hs : a.Spares o) :
    (S.perform a).supervisor.observers.Serves o ∧
      S.reads o.mailbox a ++ (S.perform a).supervisor.observers.waiting o.mailbox =
        S.supervisor.observers.waiting o.mailbox ++ ((S.effects a).filterMap Effect.update?).map Update.message := by
  rw [observers_perform hS]
  rcases effects_cases S a with ⟨change, rfl, he⟩ | ⟨hreads, he | ⟨t, time, he⟩⟩
  · have hafter : [Effect.attended change].foldl Effect.tell S.supervisor.observers =
        change.apply S.supervisor.observers := rfl
    have hreads : S.reads o.mailbox (.attend change) =
        if change.reads o.mailbox then S.supervisor.observers.waiting o.mailbox else [] := rfl
    rw [he, hafter, hreads, Attendance.waiting_apply h hs]
    refine ⟨Attendance.serves_apply h hs, ?_⟩
    by_cases hr : change.reads o.mailbox = true <;> simp [hr, Effect.update?]
  · rw [he, hreads]
    exact ⟨h, by simp⟩
  · have hafter : [Effect.told t time].foldl Effect.tell S.supervisor.observers =
        (S.supervisor.observers.publish (Update.frame ⟨t, time⟩)).2 := rfl
    rw [he, hafter, hreads, h.waiting_publish]
    exact ⟨h.publish _, rfl⟩

/-- **A served observer gets one frame for each report that is accepted**, behind what waits already and in order. -/
theorem mail_performAll {o : Observer} {actions : List Action} (hS : S.Settled) (h : S.supervisor.observers.Serves o)
    (hs : ∀ a ∈ actions, a.Spares o) : S.mail o.mailbox actions =
      S.supervisor.observers.waiting o.mailbox ++ (S.published actions).map Update.message := by
  induction actions generalizing S with
  | nil => simp [mail, published, history]
  | cons a as ih =>
    obtain ⟨hafter, hone⟩ := mail_perform hS h (hs a List.mem_cons_self)
    have hrest := ih (settled_perform hS a) hafter fun b hb => hs b (List.mem_cons_of_mem a hb)
    have hsplit : S.published (a :: as) = (S.effects a).filterMap Effect.update? ++ (S.perform a).published as :=
      List.filterMap_append
    calc S.mail o.mailbox (a :: as)
        = S.reads o.mailbox a ++ (S.perform a).mail o.mailbox as := rfl
      _ = (S.reads o.mailbox a ++ (S.perform a).supervisor.observers.waiting o.mailbox) ++
            ((S.perform a).published as).map Update.message := by rw [hrest, List.append_assoc]
      _ = S.supervisor.observers.waiting o.mailbox ++ (S.published (a :: as)).map Update.message := by
        rw [hone, hsplit, List.map_append, List.append_assoc]

/-! ## Records that are told of -/

/-- An action tells of the record that its report gave, if it brings a report that is accepted. -/
theorem mem_effects_iff : .told t time ∈ S.effects a ↔ ∃ report now, S.brought? a = some (report, now) ∧
    (S.supervisor.updateStatus report now).1 = .ok t ∧ report.effectiveTime now = time := by
  unfold effects
  cases hb : S.brought? a with
  | none =>
    refine iff_of_false ?_ nofun
    cases a <;> simp
  | some b =>
    obtain ⟨report, now⟩ := b
    cases hu : (S.supervisor.updateStatus report now).1 with
    | error e =>
      refine iff_of_false (by simp [hu]) ?_
      rintro ⟨_, _, ⟨⟩, h, -⟩
      cases hu.symm.trans h
    | ok u =>
      simp only [hu, List.mem_singleton, Effect.told.injEq]
      constructor
      · rintro ⟨rfl, rfl⟩
        exact ⟨report, now, rfl, hu, rfl⟩
      · rintro ⟨_, _, ⟨⟩, h, rfl⟩
        exact ⟨(Except.ok.inj (hu.symm.trans h)).symm, rfl⟩

/-- The record that is told of is the record of its task, which had not ended before; at the end of the task the time of
the report becomes the time of the end. -/
theorem told_effects (h : .told t time ∈ S.effects a) :
    (S.perform a).supervisor.state.find? t.id = some t ∧ (t.isTerminal = true → t.finishedAt = time) ∧
      (∃ u, S.supervisor.state.find? t.id = some u ∧ u.isTerminal = false) ∧ S.effects a = [.told t time] := by
  cases hb : S.brought? a with
  | none =>
    unfold effects at h
    rw [hb] at h
    cases a <;> simp at h
  | some b =>
    rcases perform_of_brought hb with ⟨-, he⟩ | ⟨t', state, hs, hp, he⟩
    · rw [he] at h
      cases h
    · rw [he, List.mem_singleton] at h
      obtain ⟨rfl, rfl⟩ := Effect.told.inj h
      obtain ⟨-, hfound, htime, hbefore⟩ := SupervisorState.applyReport_found hs
      refine ⟨?_, htime, hbefore, he⟩
      rw [hp]
      exact hfound

/-! ## Tasks end once -/

variable {id : TaskId}

theorem sound_performAll (h : S.ledger.Sound S.supervisor.settings) (actions : List Action) :
    (S.performAll actions).ledger.Sound (S.performAll actions).supervisor.settings := by
  obtain ⟨actions', he⟩ := performAll_eq_run S actions
  exact he ▸ sound_run_of_sound h actions'

/-- The record of a task that has ended stays. -/
theorem find?_performAll_of_ended (h : S.ledger.Sound S.supervisor.settings)
    (ht : S.supervisor.state.find? id = some t) (hend : t.isTerminal = true) (actions : List Action) :
    (S.performAll actions).supervisor.state.find? id = some t := by
  obtain ⟨actions', he⟩ := performAll_eq_run S actions
  exact he ▸ find?_run_of_ended h ht hend actions'

/-- A task that has ended after an action has ended before it, or with it. -/
theorem ended_before_or_told (hS : S.Settled) (ht : (S.perform a).supervisor.state.find? id = some t)
    (hend : t.isTerminal = true) :
    S.supervisor.state.find? id = some t ∨ t ∈ (S.effects a).filterMap Effect.ended? := by
  cases hb : S.brought? a with
  | none =>
    rw [perform_of_not_brought hb] at ht
    have hnone : ∀ report time, Activity.reporting report time ∈ S.activities → False := fun _ _ hm => by
      cases hS _ hm
    obtain ⟨taken, hmove, -⟩ := step_move (S := S) (fun _ => False) hnone a
    exact .inl (hmove.ended_before ht hend)
  | some b =>
    rcases perform_of_brought hb with ⟨hp, -⟩ | ⟨u, state, hs, hp, he⟩
    · rw [hp] at ht
      exact .inl ht
    · rw [hp] at ht
      have hfind := SupervisorState.find?_applyReport hs id
      have ht' : state.find? id = some t := ht
      rw [hfind] at ht'
      split at ht'
      · obtain rfl := Option.some.inj ht'
        refine .inr ?_
        rw [he]
        simp [Effect.ended?, hend]
      · exact .inl ht'

theorem mem_ended_effects (h : t ∈ (S.effects a).filterMap Effect.ended?) :
    t.isTerminal = true ∧ ∃ time, .told t time ∈ S.effects a := by
  obtain ⟨e, he, ht⟩ := List.mem_filterMap.1 h
  cases e with
  | told u time =>
    have hended : (if u.isTerminal then some u else none) = some t := ht
    split at hended
    · rename_i hend
      obtain rfl := Option.some.inj hended
      exact ⟨hend, time, he⟩
    · cases hended
  | attended change => cases ht

theorem length_ended_effects_le (S : System τ) (a : Action) : ((S.effects a).filterMap Effect.ended?).length ≤ 1 := by
  cases hb : S.brought? a with
  | none => simp [ended_of_not_brought hb]
  | some b =>
    refine Nat.le_trans (List.length_filterMap_le _ _) ?_
    rcases perform_of_brought hb with ⟨-, he⟩ | ⟨t, state, -, -, he⟩ <;> simp [he]

/-- **A task ends once**: the tasks that end on the way are those that have ended at the end and not at the start, and
each of them ends once. -/
theorem ended_performAll (hS : S.Settled) (h : S.ledger.Sound S.supervisor.settings) (actions : List Action) :
    ((S.ended actions).map Task.id).Nodup ∧ ∀ t, t ∈ S.ended actions ↔
      (S.performAll actions).supervisor.state.find? t.id = some t ∧ t.isTerminal = true ∧
        S.supervisor.state.find? t.id ≠ some t := by
  induction actions generalizing S with
  | nil => exact ⟨List.nodup_nil, fun t => ⟨nofun, fun ⟨ht, _, hne⟩ => absurd ht hne⟩⟩
  | cons a as ih =>
    have hsound := sound_performAll h [a]
    obtain ⟨hnodup, hmem⟩ := ih (settled_perform hS a) hsound
    have hsplit : S.ended (a :: as) = (S.effects a).filterMap Effect.ended? ++ (S.perform a).ended as := by
      rw [ended, history, List.filterMap_append]
      rfl
    have hlater : ∀ t ∈ (S.effects a).filterMap Effect.ended?, (S.perform a).supervisor.state.find? t.id = some t ∧
        (S.performAll (a :: as)).supervisor.state.find? t.id = some t := by
      intro t ht
      obtain ⟨hend, time, htold⟩ := mem_ended_effects ht
      have hfound := (told_effects htold).1
      exact ⟨hfound, find?_performAll_of_ended hsound hfound hend as⟩
    rw [hsplit]
    constructor
    · rw [List.map_append, List.nodup_append]
      refine ⟨?_, hnodup, ?_⟩
      · have hone := length_ended_effects_le S a
        cases hl : (S.effects a).filterMap Effect.ended? with
        | nil => exact List.nodup_nil
        | cons t ts =>
          rw [hl] at hone
          obtain rfl := List.length_eq_zero_iff.1 (Nat.le_zero.1 (Nat.le_of_succ_le_succ hone))
          exact List.nodup_singleton _
      · intro i hi j hj hij
        obtain ⟨t, ht, rfl⟩ := List.mem_map.1 hi
        obtain ⟨u, hu, rfl⟩ := List.mem_map.1 hj
        obtain ⟨hfound, hfinal⟩ := hlater t ht
        obtain ⟨hfinal', -, hne⟩ := (hmem u).1 hu
        have he : t = u := Option.some.inj (hfinal.symm.trans (hij ▸ hfinal'))
        exact hne (he ▸ hfound)
    · intro t
      rw [List.mem_append, hmem]
      constructor
      · rintro (ht | ⟨hfinal, hend, hne⟩)
        · obtain ⟨hend, time, htold⟩ := mem_ended_effects ht
          obtain ⟨u, hu, hlive⟩ := (told_effects htold).2.2.1
          refine ⟨(hlater t ht).2, hend, fun hbefore => ?_⟩
          obtain rfl := Option.some.inj (hbefore.symm.trans hu)
          cases hend.symm.trans hlive
        · exact ⟨hfinal, hend, fun hbefore => hne (find?_performAll_of_ended h hbefore hend [a])⟩
      · rintro ⟨hfinal, hend, hne⟩
        by_cases hfound : (S.perform a).supervisor.state.find? t.id = some t
        · exact .inl ((ended_before_or_told hS hfound hend).resolve_left hne)
        · exact .inr ⟨hfinal, hend, hfound⟩

end System

end ScriptRunner
