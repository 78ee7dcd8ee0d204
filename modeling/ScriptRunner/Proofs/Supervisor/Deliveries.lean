import Mathlib.Data.List.Infix
import ScriptRunner.Proofs.Supervisor.Answers
import ScriptRunner.Proofs.Supervisor.Lifecycle
import ScriptRunner.Proofs.Supervisor.Mailboxes

/-!
# The order in which observers learn of updates

A report that is accepted becomes an update: it is applied, its record is kept if the task has ended, and then it is
announced. Between the first step and the last one it is under way, and other updates may overtake it.

An observer gets the updates in the order in which they are announced (`heard_run`). What was under way or is applied has
been announced or is under way (`underWay_run`), so that updates of a task that are never under way together are
announced in the order in which they are applied (`order_run`). After the end of a task only updates that were under way
at that moment can still be announced (`end_run`).
-/

namespace ScriptRunner

/-- A report that was accepted: the record that it gave, and the time that it was about. -/
structure Update where
  task : Task
  time : Int64
  deriving DecidableEq, Repr

namespace Update

/-- What observers are sent. -/
def frame (u : Update) : ObserverFrame := .ofTask u.task u.time

def message (u : Update) : ObserverMessage := .text u.frame.json.compact

/-- The updates of one task. -/
def about (id : TaskId) (us : List Update) : List Update := us.filter fun u => u.task.id == id

@[simp] theorem about_nil (id : TaskId) : about id [] = [] := rfl

@[simp] theorem about_append (id : TaskId) (us vs : List Update) : about id (us ++ vs) = about id us ++ about id vs :=
  List.filter_append us vs

theorem mem_about {id : TaskId} {us : List Update} {u : Update} : u ∈ about id us ↔ u ∈ us ∧ u.task.id = id := by
  simp [about]

theorem about_perm (id : TaskId) {us vs : List Update} (h : us.Perm vs) : (about id us).Perm (about id vs) :=
  h.filter _

end Update

/-- The update that an activity is about to keep or to announce. -/
def Activity.update? : Activity → Option Update
  | recording t time | announcing t time => some ⟨t, time⟩
  | _ => none

/-- The action does not end the service of the observer. -/
def Action.Spares (o : Observer) : Action → Prop
  | attend change => change.Spares o
  | _ => True

namespace System

variable {τ : Type} {S : System τ} {a : Action} {actions : List Action} {id : TaskId} {t : Task} {u : Update}

/-- The updates that have been applied and not yet announced. -/
def underWay (S : System τ) : List Update := S.activities.filterMap Activity.update?

/-- The update that an action applies, if it applies one. -/
def applies (S : System τ) : Action → List Update
  | .proceed i _ =>
    match S.activities[i]? with
    | some (.reporting report time) =>
      match S.supervisor.state.applyReport report time with
      | .ok (t, _) => [⟨t, time⟩]
      | .error _ => []
    | _ => []
  | _ => []

/-- The update that an action announces, if it announces one. -/
def announces (S : System τ) : Action → List Update
  | .proceed i _ =>
    match S.activities[i]? with
    | some (.announcing t time) => [⟨t, time⟩]
    | _ => []
  | _ => []

/-- The messages that an action takes out of a mailbox. -/
def reads (mailbox : Nat) (S : System τ) : Action → List ObserverMessage
  | .attend change => if change.reads mailbox then S.supervisor.observers.waiting mailbox else []
  | _ => []

/-- What the actions of a run give one after the other. -/
def gather {β : Type} (f : System τ → Action → List β) (S : System τ) : List Action → List β
  | [] => []
  | a :: as => f S a ++ (S.step a).gather f as

/-- The updates that are applied during a run, in this order. -/
def applied (S : System τ) (actions : List Action) : List Update := S.gather applies actions

/-- The updates that are announced during a run, in this order. -/
def announced (S : System τ) (actions : List Action) : List Update := S.gather announces actions

/-- What has been read out of a mailbox during a run, and then what waits there. -/
def heard (mailbox : Nat) (S : System τ) (actions : List Action) : List ObserverMessage :=
  S.gather (reads mailbox) actions ++ (S.run actions).supervisor.observers.waiting mailbox

theorem applied_cons (S : System τ) (a : Action) (as : List Action) :
    S.applied (a :: as) = S.applies a ++ (S.step a).applied as := rfl

theorem announced_cons (S : System τ) (a : Action) (as : List Action) :
    S.announced (a :: as) = S.announces a ++ (S.step a).announced as := rfl

/-! ## What an observer hears -/

/-- An action that is not about the observers neither reads nor announces. -/
theorem silent_of_quiet (h : S.Quiet a) : (∀ mailbox, S.reads mailbox a = []) ∧ S.announces a = [] := by
  cases a with
  | attend change => exact h.elim
  | proceed i now =>
    refine ⟨fun _ => rfl, ?_⟩
    unfold announces
    dsimp only
    split
    · rename_i t time hi
      exact absurd hi (h t time)
    · rfl
  | run | report | exit | failLaunch | command | package => exact ⟨fun _ => rfl, rfl⟩

/-- An action is a change among the observers, announces an update, or leaves the observers alone. -/
theorem observers_step (S : System τ) (a : Action) :
    (∃ change, a = .attend change ∧ S.announces a = [] ∧
        (S.step a).supervisor.observers = change.apply S.supervisor.observers) ∨
      (∀ mailbox, S.reads mailbox a = []) ∧
        ((∃ u, S.announces a = [u] ∧ (S.step a).supervisor.observers = (S.supervisor.observers.publish u.frame).2) ∨
          S.announces a = [] ∧ (S.step a).supervisor.observers = S.supervisor.observers) := by
  rcases supervisor_step S a with ⟨change, rfl, hafter⟩ | ⟨i, now, t, time, rfl, hi, hafter⟩ |
      ⟨i, now, t, time, rfl, hi, hafter⟩ | ⟨hquiet, state, packages, lastExchange, hafter⟩
  · exact .inl ⟨change, rfl, rfl, by rw [hafter]⟩
  · refine .inr ⟨fun _ => rfl, .inr ⟨by simp [announces, hi], ?_⟩⟩
    rw [hafter]
    rfl
  · refine .inr ⟨fun _ => rfl, .inl ⟨⟨t, time⟩, by simp [announces, hi], ?_⟩⟩
    rw [hafter]
    rfl
  · obtain ⟨hreads, hannounces⟩ := silent_of_quiet hquiet
    exact .inr ⟨hreads, .inr ⟨hannounces, by rw [hafter]⟩⟩

theorem sound_observers_run (h : S.supervisor.observers.Sound) (actions : List Action) :
    (S.run actions).supervisor.observers.Sound := by
  refine run_induction (P := fun T => T.supervisor.observers.Sound) (fun T a _ hT => ?_) h
  rcases observers_step T a with ⟨change, -, -, hafter⟩ | ⟨-, ⟨u, -, hafter⟩ | ⟨-, hafter⟩⟩
  · exact hafter ▸ Attendance.sound_apply hT change
  · exact hafter ▸ Broadcaster.sound_publish hT u.frame
  · exact hafter ▸ hT

/-- A served observer hears what an action announces. -/
theorem heard_step {o : Observer} (h : S.supervisor.observers.Serves o) (hs : a.Spares o) :
    (S.step a).supervisor.observers.Serves o ∧
      S.reads o.mailbox a ++ (S.step a).supervisor.observers.waiting o.mailbox =
        S.supervisor.observers.waiting o.mailbox ++ (S.announces a).map Update.message := by
  rcases observers_step S a with ⟨change, rfl, hnone, hafter⟩ | ⟨hreads, ⟨u, hu, hafter⟩ | ⟨hnone, hafter⟩⟩
  · rw [hafter, hnone, Attendance.waiting_apply h hs]
    have hreads : S.reads o.mailbox (.attend change) =
        if change.reads o.mailbox then S.supervisor.observers.waiting o.mailbox else [] := rfl
    rw [hreads]
    refine ⟨Attendance.serves_apply h hs, ?_⟩
    by_cases hr : change.reads o.mailbox = true <;> simp [hr]
  · rw [hafter, hreads, hu, h.waiting_publish]
    exact ⟨h.publish u.frame, rfl⟩
  · rw [hafter, hreads, hnone]
    exact ⟨h, by simp⟩

/-- **A served observer hears what is announced**, in this order and each update once, behind what waits already. -/
theorem heard_run {o : Observer} (h : S.supervisor.observers.Serves o) (hs : ∀ a ∈ actions, a.Spares o) :
    S.heard o.mailbox actions =
      S.supervisor.observers.waiting o.mailbox ++ (S.announced actions).map Update.message := by
  induction actions generalizing S with
  | nil => simp [heard, announced, gather]
  | cons a as ih =>
    obtain ⟨hafter, hone⟩ := heard_step h (hs a List.mem_cons_self)
    have hrest := ih hafter fun b hb => hs b (List.mem_cons_of_mem a hb)
    calc S.heard o.mailbox (a :: as)
        = S.reads o.mailbox a ++ (S.step a).heard o.mailbox as := List.append_assoc _ _ _
      _ = (S.reads o.mailbox a ++ (S.step a).supervisor.observers.waiting o.mailbox) ++
            ((S.step a).announced as).map Update.message := by rw [hrest, List.append_assoc]
      _ = S.supervisor.observers.waiting o.mailbox ++ (S.announced (a :: as)).map Update.message := by
        rw [hone, announced_cons, List.map_append, List.append_assoc]

/-! ## Updates under way -/

/-- The next step of an activity balances what is under way with what it applies and announces. -/
theorem underWay_proceed (S : System τ) (i : Nat) (now : Int64) :
    (S.underWay ++ S.applies (.proceed i now)).Perm (S.announces (.proceed i now) ++ (S.proceed i now).underWay) := by
  cases hi : S.activities[i]? with
  | none => simp [proceed, applies, announces, hi]
  | some b =>
    have herase : S.underWay.Perm _ := perm_eraseIdx Activity.update? hi
    have hset := fun b' => perm_set Activity.update? hi b'
    cases b with
    | preparing request r =>
      simp only [applies, announces, proceed, hi, List.append_nil, List.nil_append]
      split
      · exact herase
      · rename_i header program _
        exact herase.trans (hset (.launching ⟨r, header, program⟩)).symm
    | launching l =>
      simp only [applies, announces, proceed, hi, List.append_nil, List.nil_append]
      exact herase
    | reporting report time =>
      cases hs : S.supervisor.state.applyReport report time with
      | error e =>
        simp only [applies, announces, proceed, hi, hs, List.append_nil, List.nil_append]
        exact herase
      | ok v =>
        simp only [applies, announces, proceed, hi, hs, List.nil_append]
        exact ((List.perm_append_singleton _ _).trans (herase.cons _)).trans (hset (.recording v.1 time)).symm
    | recording t time =>
      simp only [applies, announces, proceed, hi, List.append_nil, List.nil_append]
      exact herase.trans (hset (.announcing t time)).symm
    | announcing t time =>
      simp only [applies, announces, proceed, hi, List.append_nil]
      exact herase

/-- An action takes an update under way by applying it, and ends its way by announcing it. -/
theorem underWay_step (S : System τ) (a : Action) :
    (S.underWay ++ S.applies a).Perm (S.announces a ++ (S.step a).underWay) := by
  have hkept : ∀ {S' : System τ}, S.underWay.Perm S'.underWay → (S.underWay ++ []).Perm ([] ++ S'.underWay) :=
    fun h => by simpa using h
  cases a with
  | proceed i now => exact underWay_proceed S i now
  | run request draws probes =>
    refine hkept ?_
    simp only [step]
    split <;> exact .refl _
  | report report now => exact hkept (.refl _)
  | exit id code now =>
    refine hkept ?_
    simp only [step]
    split <;> exact .refl _
  | failLaunch i =>
    refine hkept ?_
    simp only [step]
    split
    · rename_i l hi
      exact perm_eraseIdx Activity.update? hi
    · exact .refl _
  | attend change => exact hkept (.refl _)
  | command exchange id cmd value => exact hkept (.refl _)
  | package spawn id name => exact hkept (.refl _)

/-- **Nothing is lost and nothing is announced twice**: what was under way or is applied has been announced in the end,
or is still under way. -/
theorem underWay_run (S : System τ) (actions : List Action) :
    (S.underWay ++ S.applied actions).Perm (S.announced actions ++ (S.run actions).underWay) := by
  induction actions generalizing S with
  | nil => simp [applied, announced, gather]
  | cons a as ih =>
    have hone := (underWay_step S a).append_right ((S.step a).applied as)
    have hrest := (ih (S.step a)).append_left (S.announces a)
    rw [List.append_assoc, List.append_assoc] at hone
    rw [← List.append_assoc (S.announces a) _ ((S.step a).run as).underWay] at hrest
    exact hone.trans hrest

/-- A list with one entry at most is ordered in one way. -/
theorem eq_of_perm_of_length_le_one {β : Type} {xs ys : List β} (h : xs.Perm ys) (hl : xs.length ≤ 1) : xs = ys := by
  match xs, hl with
  | [], _ => exact (List.nil_perm.1 h).symm
  | [x], _ => exact List.singleton_perm.1 h

/-- No action both applies an update and announces one. -/
theorem applies_or_announces (S : System τ) (a : Action) : S.applies a = [] ∨ S.announces a = [] := by
  unfold applies announces
  split
  · rename_i i now
    cases S.activities[i]? with
    | none => exact .inl rfl
    | some b => cases b <;> simp
  · exact .inl rfl

/-- **Updates of a task that are never under way together keep their order.** -/
theorem order_run (h : ∀ first, first <+: actions → (Update.about id (S.run first).underWay).length ≤ 1) :
    Update.about id S.underWay ++ Update.about id (S.applied actions) =
      Update.about id (S.announced actions) ++ Update.about id (S.run actions).underWay := by
  induction actions generalizing S with
  | nil => simp [applied, announced, gather]
  | cons a as ih =>
    have hbefore : (Update.about id S.underWay).length ≤ 1 := h [] List.nil_prefix
    have hafter : (Update.about id (S.step a).underWay).length ≤ 1 := h [a] (List.prefix_append [a] as)
    have hrest := ih fun first hf => h (a :: first) ((List.prefix_cons_inj a).2 hf)
    have hperm := Update.about_perm id (underWay_step S a)
    rw [Update.about_append, Update.about_append] at hperm
    -- with one update at most on either side of the step, the account of the step has one order only
    have hone : Update.about id S.underWay ++ Update.about id (S.applies a) =
        Update.about id (S.announces a) ++ Update.about id (S.step a).underWay := by
      refine eq_of_perm_of_length_le_one hperm ?_
      rcases applies_or_announces S a with hnone | hnone
      · simpa [hnone] using hbefore
      · rw [hperm.length_eq]
        simpa [hnone] using hafter
    calc Update.about id S.underWay ++ Update.about id (S.applied (a :: as))
        = (Update.about id S.underWay ++ Update.about id (S.applies a)) ++ Update.about id ((S.step a).applied as) := by
          rw [applied_cons, Update.about_append, List.append_assoc]
      _ = Update.about id (S.announces a) ++
            (Update.about id (S.step a).underWay ++ Update.about id ((S.step a).applied as)) := by
          rw [hone, List.append_assoc]
      _ = Update.about id (S.announced (a :: as)) ++ Update.about id (S.run (a :: as)).underWay := by
          rw [hrest, announced_cons, Update.about_append, List.append_assoc, run_cons]

/-! ## The end of a task -/

/-- An update that is applied is the record of its task, which had not ended. -/
theorem mem_applies (h : u ∈ S.applies a) :
    (S.step a).supervisor.state.find? u.task.id = some u.task ∧ (u.task.isTerminal = true → u.task.finishedAt = u.time) ∧
      ∃ v, S.supervisor.state.find? u.task.id = some v ∧ v.isTerminal = false := by
  cases a with
  | proceed i now =>
    cases hi : S.activities[i]? with
    | none => simp [applies, hi] at h
    | some b =>
      cases b with
      | reporting report time =>
        cases hs : S.supervisor.state.applyReport report time with
        | error e => simp [applies, hi, hs] at h
        | ok v =>
          simp only [applies, hi, hs, List.mem_singleton] at h
          subst h
          obtain ⟨-, hfound, htime, hbefore⟩ := SupervisorState.applyReport_found hs
          refine ⟨?_, htime, hbefore⟩
          simpa [step, proceed, hi, hs] using hfound
      | preparing | launching | recording | announcing => simp [applies, hi] at h
  | run | report | exit | failLaunch | attend | command | package => simp [applies] at h

/-- A task that has ended after an action has ended before it, or the action applies its end. -/
theorem ended_before_or_applies (ht : (S.step a).supervisor.state.find? id = some t) (hend : t.isTerminal = true) :
    S.supervisor.state.find? id = some t ∨ S.applies a = [⟨t, t.finishedAt⟩] := by
  -- only a report can end a task, and only the action that applies it
  by_cases hreport : ∃ i now report time, a = .proceed i now ∧ S.activities[i]? = some (.reporting report time)
  · obtain ⟨i, now, report, time, rfl, hi⟩ := hreport
    cases hs : S.supervisor.state.applyReport report time with
    | error e =>
      simp only [step, proceed, hi, hs] at ht
      exact .inl ht
    | ok v =>
      simp only [step, proceed, hi, hs] at ht
      rw [SupervisorState.find?_applyReport hs] at ht
      split at ht
      · obtain rfl := Option.some.inj ht
        obtain ⟨-, -, htime, -⟩ := SupervisorState.applyReport_found hs
        refine .inr ?_
        simp only [applies, hi, hs, htime hend]
      · exact .inl ht
  · obtain ⟨_, hmove, -⟩ := step_move_of_applied (S := S) (a := a) (fun _ => False)
      fun i now report time ha hi => hreport ⟨i, now, report, time, ha, hi⟩
    exact .inl (hmove.ended_before ht hend)

/-- **No task ends twice**: after its end no update of the task is applied. -/
theorem applied_of_ended (h : S.ledger.Sound S.supervisor.settings) (ht : S.supervisor.state.find? id = some t)
    (hend : t.isTerminal = true) (actions : List Action) : Update.about id (S.applied actions) = [] := by
  induction actions generalizing S with
  | nil => rfl
  | cons a as ih =>
    have hfirst : Update.about id (S.applies a) = [] := by
      refine List.eq_nil_iff_forall_not_mem.2 fun u hu => ?_
      obtain ⟨hmem, rfl⟩ := Update.mem_about.1 hu
      obtain ⟨-, -, v, hv, hlive⟩ := mem_applies hmem
      obtain rfl := Option.some.inj (hv.symm.trans ht)
      cases hend.symm.trans hlive
    have hsound : (S.step a).ledger.Sound (S.step a).supervisor.settings := sound_run_of_sound h [a]
    rw [applied_cons, Update.about_append, hfirst, ih hsound (find?_run_of_ended h ht hend [a])]
    rfl

/-- An update that ends its task is the record of the task from then on. -/
theorem ended_of_applied (h : S.ledger.Sound S.supervisor.settings) (hu : u ∈ S.applied actions)
    (hend : u.task.isTerminal = true) : (S.run actions).supervisor.state.find? u.task.id = some u.task := by
  induction actions generalizing S with
  | nil => cases hu
  | cons a as ih =>
    have hsound : (S.step a).ledger.Sound (S.step a).supervisor.settings := sound_run_of_sound h [a]
    rcases List.mem_append.1 hu with hu | hu
    · exact find?_run_of_ended hsound (mem_applies hu).1 hend as
    · exact ih hsound hu

/-- The updates under way that end a task are the records of their tasks. -/
def EndsShown (S : System τ) : Prop :=
  ∀ u ∈ S.underWay, u.task.isTerminal = true → S.supervisor.state.find? u.task.id = some u.task

theorem ended_of_mem (h : S.ledger.Sound S.supervisor.settings) (hS : S.EndsShown)
    (hu : u ∈ S.underWay ++ S.applied actions) (hend : u.task.isTerminal = true) :
    (S.run actions).supervisor.state.find? u.task.id = some u.task := by
  rcases List.mem_append.1 hu with hu | hu
  · exact find?_run_of_ended h (hS u hu hend) hend actions
  · exact ended_of_applied h hu hend

theorem endsShown_run (h : S.ledger.Sound S.supervisor.settings) (hS : S.EndsShown) (actions : List Action) :
    (S.run actions).EndsShown := fun _ hu hend =>
  ended_of_mem h hS ((underWay_run S actions).mem_iff.2 (List.mem_append_right _ hu)) hend

/-- An action applies the end of a task: until then nothing that was announced or is under way ends the task, from then
on `t` is its record, and what is announced of the task from then on, or is still under way after the rest of the run,
is its end and what was under way before it. -/
structure EndsAt (S : System τ) (first : List Action) (a : Action) (rest : List Action) (t : Task) : Prop where
  applies : (S.run first).applies a = [⟨t, t.finishedAt⟩]
  before : ∀ u ∈ Update.about t.id (S.announced first ++ (S.run first).underWay), u.task.isTerminal = false
  final : ∀ more, (S.run (first ++ a :: more)).supervisor.state.find? t.id = some t
  after : (Update.about t.id ((S.run first).announced (a :: rest) ++ (S.run (first ++ a :: rest)).underWay)).Perm
    (⟨t, t.finishedAt⟩ :: Update.about t.id (S.run first).underWay)

theorem exists_applies_of_ended (ht : (S.run actions).supervisor.state.find? id = some t) (hend : t.isTerminal = true)
    (hne : S.supervisor.state.find? id ≠ some t) :
    ∃ first a rest, actions = first ++ a :: rest ∧ (S.run first).applies a = [⟨t, t.finishedAt⟩] := by
  induction actions generalizing S with
  | nil => exact absurd ht hne
  | cons a as ih =>
    by_cases hone : (S.step a).supervisor.state.find? id = some t
    · exact ⟨[], a, as, rfl, (ended_before_or_applies hone hend).resolve_left hne⟩
    · obtain ⟨first, b, rest, rfl, happlies⟩ := ih ht hone
      exact ⟨a :: first, b, rest, rfl, happlies⟩

/-- **A task ends at one action**, if it has ended after a run and not before it. -/
theorem end_run (h : S.ledger.Sound S.supervisor.settings) (hS : S.EndsShown)
    (ht : (S.run actions).supervisor.state.find? t.id = some t) (hend : t.isTerminal = true)
    (hne : S.supervisor.state.find? t.id ≠ some t) :
    ∃ first a rest, actions = first ++ a :: rest ∧ S.EndsAt first a rest t := by
  obtain ⟨first, a, rest, rfl, happlies⟩ := exists_applies_of_ended ht hend hne
  have hsound := sound_run_of_sound h first
  have hsound' := sound_run_of_sound hsound [a]
  have hu : (⟨t, t.finishedAt⟩ : Update) ∈ (S.run first).applies a := happlies ▸ List.mem_singleton_self _
  obtain ⟨hfound, -, v, hv, hlive⟩ := mem_applies hu
  refine ⟨first, a, rest, rfl, happlies, fun u hu => ?_, fun more => ?_, ?_⟩
  · obtain ⟨hmem, hid⟩ := Update.mem_about.1 hu
    cases hu : u.task.isTerminal with
    | false => rfl
    | true =>
      -- such an update would be the record of the task before `a`, but then the task had not ended
      have hshown := ended_of_mem h hS ((underWay_run S first).mem_iff.2 hmem) hu
      rw [hid, hv] at hshown
      rw [Option.some.inj hshown, hu] at hlive
      cases hlive
  · rw [run_append, run_cons]
    exact find?_run_of_ended hsound' hfound hend more
  · have hperm := Update.about_perm t.id (underWay_run (S.run first) (a :: rest))
    have hlater : Update.about t.id (((S.run first).step a).applied rest) = [] :=
      applied_of_ended hsound' hfound hend rest
    have hone : Update.about t.id [(⟨t, t.finishedAt⟩ : Update)] = [⟨t, t.finishedAt⟩] := by simp [Update.about]
    rw [Update.about_append, applied_cons, Update.about_append, happlies, hlater, hone, List.append_nil] at hperm
    rw [run_append]
    exact hperm.symm.trans (List.perm_append_singleton _ _)

/-- **Frames arrive in the order in which updates are announced**, from every moment of every interleaving on. Here an
announcement is one step that nothing can interrupt: all observers get the frame at once. Announcements that overlap
while they go from mailbox to mailbox could reach two observers in different orders, which this says nothing of.

An observer that is registered and read gets what is announced, in this order, each update once. What was under way or is
applied has been announced in the end, or is still under way. If no two updates of a task are ever under way together,
they are announced in the order in which they are applied; otherwise one may overtake another. When a task ends, its end
is announced once, with the record that stays. Of its other updates only those can be announced after that which were
under way when the end was applied. -/
theorem frames_arrive_as_announced (c : SupervisorSettings) (w : Workshop) (store : TraceStore τ) (traces : τ)
    (packages : Option PackageManager) (before during : List Action) :
    let S := (System.initial c w store traces packages).run before
    let T := S.run during
    (∀ o ∈ S.supervisor.observers.observers, S.supervisor.observers.isAlive o = true → (∀ a ∈ during, a.Spares o) →
      S.heard o.mailbox during =
        S.supervisor.observers.waiting o.mailbox ++ (S.announced during).map Update.message) ∧
    (S.underWay ++ S.applied during).Perm (S.announced during ++ T.underWay) ∧
    (∀ id, (∀ first, first <+: during → (Update.about id (S.run first).underWay).length ≤ 1) →
      Update.about id (S.underWay ++ S.applied during) = Update.about id (S.announced during ++ T.underWay)) ∧
    ∀ t, t.isTerminal = true → T.supervisor.state.find? t.id = some t → S.supervisor.state.find? t.id ≠ some t →
      ∃ first a rest, during = first ++ a :: rest ∧ S.EndsAt first a rest t := by
  intro S T
  have hsound := sound_run_of_sound (S := System.initial c w store traces packages) (Ledger.sound_initial c) before
  have hshown : S.EndsShown := endsShown_run (Ledger.sound_initial c) (fun _ hu => absurd hu List.not_mem_nil) before
  have hobservers : S.supervisor.observers.Sound := sound_observers_run Broadcaster.sound_empty before
  refine ⟨fun o ho halive hs => heard_run ⟨hobservers, ho, halive⟩ hs, underWay_run S during, fun id h => ?_,
    fun t hend ht hne => end_run hsound hshown ht hend hne⟩
  rw [Update.about_append, Update.about_append]
  exact order_run h

end System

/-! ## A watcher of one task -/

namespace Sample

/-- The start of a task, with a watcher who came before it. -/
def watched : List Action :=
  [.attend (.add "watcher" 90), .run (request "job") [7] (.off, .off), .proceed 0 100, .proceed 0 100]

def watcher : Observer := ⟨"watcher", 0, 90⟩

def busy : Update := ⟨⟨7, .active, "job", "job", 0, 0, 43001, 43002, 100, 0, "busy"⟩, 110⟩

def done : Update := ⟨⟨7, .finished, "job", "job", 0, 0, 43001, 43002, 100, 120, "done"⟩, 120⟩

end Sample

namespace System

open Sample

/-- Two updates of a task one after the other, the second of which ends the task. -/
theorem watcher_hears_end_last :
    let during : List Action := [.report ⟨7, .active, "busy", 0⟩ 110, .proceed 0 110, .proceed 0 110, .proceed 0 110,
      .report ⟨7, .finished, "done", 0⟩ 120, .proceed 0 120, .proceed 0 120, .proceed 0 120]
    let S := (System.initial settings workshop .memory [] none).run watched
    S.heard watcher.mailbox during = [busy.message, done.message] ∧
      Update.about 7 (S.underWay ++ S.applied during) = Update.about 7 (S.announced during ++ (S.run during).underWay) ∧
      ∃ first a rest, during = first ++ a :: rest ∧ S.EndsAt first a rest done.task := by
  intro during S
  obtain ⟨hheard, -, horder, hend⟩ := frames_arrive_as_announced settings workshop .memory [] none watched during
  have hregistered : watcher ∈ S.supervisor.observers.observers := by decide +kernel
  have halive : S.supervisor.observers.isAlive watcher = true := by decide +kernel
  have hspared : ∀ a ∈ during, a.Spares watcher := by simp [during, Action.Spares]
  have hannounced : S.announced during = [busy, done] := by decide +kernel
  have hwaiting : S.supervisor.observers.waiting watcher.mailbox = [] := by decide +kernel
  have hpaced : ∀ first ∈ during.inits, (Update.about 7 (S.run first).underWay).length ≤ 1 := by decide +kernel
  refine ⟨?_, horder 7 fun first hf => hpaced first ((List.mem_inits _ _).2 hf), ?_⟩
  · have h := hheard watcher hregistered halive hspared
    rwa [hwaiting, hannounced] at h
  · exact hend done.task rfl (by decide +kernel) (by decide +kernel)

/-- An update that is overtaken by the end of its task: the watcher hears of it after the end, although it was applied
first and both updates have been announced. -/
theorem overtaken_update_is_heard_after_end :
    let during : List Action := [.report ⟨7, .active, "busy", 0⟩ 110, .report ⟨7, .finished, "done", 0⟩ 120,
      .proceed 1 120, .proceed 0 120, .proceed 0 120, .proceed 0 120, .proceed 0 120, .proceed 0 120]
    let S := (System.initial settings workshop .memory [] none).run watched
    let T := S.run during
    S.supervisor.observers.Serves watcher ∧ (∀ a ∈ during, a.Spares watcher) ∧ S.underWay = [] ∧ T.underWay = [] ∧
      T.supervisor.state.find? 7 = some done.task ∧ done.task.isTerminal = true ∧
      S.applied during = [busy, done] ∧ S.heard watcher.mailbox during = [done.message, busy.message] ∧
      S.heard watcher.mailbox during ≠ (S.applied during).map Update.message ∧
      (S.heard watcher.mailbox during).getLast? ≠ some done.message := by
  intro during S T
  have hsound : S.supervisor.observers.Sound := sound_observers_run Broadcaster.sound_empty watched
  have hserved : S.supervisor.observers.Serves watcher := ⟨hsound, by decide +kernel, by decide +kernel⟩
  have hspared : ∀ a ∈ during, a.Spares watcher := by simp [during, Action.Spares]
  have hwaiting : S.supervisor.observers.waiting watcher.mailbox = [] := by decide +kernel
  have happlied : S.applied during = [busy, done] := by decide +kernel
  have hannounced : S.announced during = [done, busy] := by decide +kernel
  have hheard : S.heard watcher.mailbox during = [done.message, busy.message] := by
    rw [heard_run hserved hspared, hwaiting, hannounced]
    rfl
  have hne : done.message ≠ busy.message := by decide +kernel
  refine ⟨hserved, hspared, by decide +kernel, by decide +kernel, by decide +kernel, rfl, happlied, hheard, ?_, ?_⟩
  · rw [hheard, happlied]
    exact fun h => hne (List.cons.inj h).1
  · rw [hheard]
    exact fun h => hne (Option.some.inj h).symm

end System

end ScriptRunner
