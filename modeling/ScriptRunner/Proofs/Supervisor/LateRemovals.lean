import ScriptRunner.Proofs.Supervisor.Subscriptions

/-!
# Deliveries that fail

A call of publish makes two steps: it puts its frame into the mailboxes of all observers and notes the names of those
whose mailboxes are not read; later it forgets the observers that have these names then (`Relay.step`). Other calls may
come between the steps. Done one right after the other they are a publication (`Relay.step_deliver_forget`).

The first step deregisters nobody. The second one deregisters an observer whose mailbox is read exactly if the name was
noted for another one and the observer was added under it between the steps (`Relay.loses_live_observer_iff`).
-/

namespace ScriptRunner

/-- A broadcaster with the calls of publish so far, in the order of their deliveries: the names that each of them has
still to forget. -/
structure Relay where
  broadcaster : Broadcaster
  calls : List (List String)

namespace Relay

inductive Action where
  | attend (change : Attendance)
  /-- A call of publish delivers its frame. -/
  | deliver (frame : ObserverFrame)
  /-- A call forgets the observers of the names that it noted. -/
  | forget (call : Nat)

/-- The action is a step of a call of publish. -/
def Action.IsPublishing : Action → Prop
  | attend _ => False
  | deliver _ | forget _ => True

def initial : Relay := ⟨.empty, []⟩

def step (r : Relay) : Action → Relay
  | .attend change => ⟨change.apply r.broadcaster, r.calls⟩
  | .deliver frame => ⟨(r.broadcaster.deliver frame).2, r.calls ++ [(r.broadcaster.deliver frame).1.failed]⟩
  | .forget call => ⟨r.broadcaster.forget (r.calls[call]?.getD []), r.calls.set call []⟩

def run (r : Relay) (actions : List Action) : Relay := actions.foldl step r

variable {r : Relay} {a : Action} {o : Observer} {actions : List Action} {call : Nat}

theorem run_append (r : Relay) (as bs : List Action) : r.run (as ++ bs) = (r.run as).run bs := List.foldl_append

theorem run_cons (r : Relay) (a : Action) (as : List Action) : r.run (a :: as) = (r.step a).run as := rfl

/-- The two steps of a call, one right after the other, are a publication. -/
theorem step_deliver_forget (r : Relay) (frame : ObserverFrame) :
    ((r.step (.deliver frame)).step (.forget r.calls.length)).broadcaster = (r.broadcaster.publish frame).2 := by
  simp [step, Broadcaster.publish]

/-- An observer that is registered and whose mailbox is read is no longer registered after a step of a call of publish. -/
structure Loses (r : Relay) (a : Action) (o : Observer) : Prop where
  registered : o ∈ r.broadcaster.observers
  alive : r.broadcaster.isAlive o = true
  publishing : a.IsPublishing
  gone : o ∉ (r.step a).broadcaster.observers

/-! ## Observers -/

theorem sound_step (h : r.broadcaster.Sound) (a : Action) : (r.step a).broadcaster.Sound := by
  cases a with
  | attend change => exact change.sound_apply h
  | deliver frame => exact Broadcaster.sound_send h _
  | forget call => exact h.of_sublist (Broadcaster.sublist_forget _ _) (by rw [step, Broadcaster.mailboxes_forget])

theorem sound_run (h : r.broadcaster.Sound) (actions : List Action) : (r.run actions).broadcaster.Sound := by
  induction actions generalizing r with
  | nil => exact h
  | cons a as ih => exact ih (sound_step h a)

/-- Whoever is served after an action was served before it or is added by it. -/
theorem serves_of_step (h : r.broadcaster.Sound) (hs : (r.step a).broadcaster.Serves o) :
    r.broadcaster.Serves o ∨ a = .attend (.add o.id o.connectedAt) := by
  cases a with
  | attend change =>
    rcases Broadcaster.serves_of_attend h hs with ⟨hserved, -⟩ | ⟨rfl, -⟩
    · exact .inl hserved
    · exact .inr rfl
  | deliver frame => exact .inl (Broadcaster.serves_of_send h hs)
  | forget call => exact .inl (Broadcaster.serves_of_forget h hs)

theorem serves_of_run (h : r.broadcaster.Sound) (hs : (r.run actions).broadcaster.Serves o) :
    r.broadcaster.Serves o ∨ .attend (.add o.id o.connectedAt) ∈ actions := by
  induction actions generalizing r with
  | nil => exact .inl hs
  | cons a as ih =>
    rcases ih (sound_step h a) hs with hserved | hadd
    · rcases serves_of_step h hserved with hserved | rfl
      · exact .inl hserved
      · exact .inr List.mem_cons_self
    · exact .inr (List.mem_cons_of_mem a hadd)

/-! ## Calls -/

/-- A call keeps its names until it forgets them. -/
theorem getElem?_calls_step (h : call < r.calls.length) (ha : a ≠ .forget call) :
    (r.step a).calls[call]? = r.calls[call]? := by
  cases a with
  | attend change => rfl
  | deliver frame => exact List.getElem?_append_left h
  | forget call' =>
    have hne : call' ≠ call := fun he => ha (congrArg _ he)
    exact List.getElem?_set_ne hne

theorem length_calls_step_le (r : Relay) (a : Action) : r.calls.length ≤ (r.step a).calls.length := by
  cases a <;> simp [step]

/-- A call that has forgotten its names has none left. -/
theorem getElem?_calls_run_of_done (h : r.calls[call]? = some []) (actions : List Action) :
    (r.run actions).calls[call]? = some [] := by
  induction actions generalizing r with
  | nil => exact h
  | cons a as ih =>
    obtain ⟨hlt, -⟩ := List.getElem?_eq_some_iff.1 h
    refine ih ?_
    by_cases ha : a = .forget call
    · subst ha
      exact List.getElem?_set_self hlt
    · rw [getElem?_calls_step hlt ha, h]

/-- **What a call has still to forget**: all that it noted, or nothing if it has been at it. -/
theorem getElem?_calls_run (h : call < r.calls.length) :
    (.forget call ∉ actions → (r.run actions).calls[call]? = r.calls[call]?) ∧
      (.forget call ∈ actions → (r.run actions).calls[call]? = some []) := by
  induction actions generalizing r with
  | nil => exact ⟨fun _ => rfl, nofun⟩
  | cons a as ih =>
    have hnext := ih (Nat.lt_of_lt_of_le h (length_calls_step_le r a))
    by_cases ha : a = .forget call
    · subst ha
      exact ⟨fun hmem => absurd List.mem_cons_self hmem,
        fun _ => getElem?_calls_run_of_done (List.getElem?_set_self h) as⟩
    · have hmem : .forget call ∈ a :: as ↔ .forget call ∈ as :=
        ⟨fun h => (List.mem_cons.1 h).resolve_left (Ne.symm ha), List.mem_cons_of_mem a⟩
      rw [hmem, run_cons, ← getElem?_calls_step h ha]
      exact hnext

/-- Every call began with a delivery. -/
theorem exists_delivery (h : call < (initial.run actions).calls.length) :
    ∃ before frame between, actions = before ++ .deliver frame :: between ∧
      (initial.run before).calls.length = call := by
  induction actions using List.reverseRecOn with
  | nil => exact absurd h (Nat.not_lt_zero _)
  | append_singleton as a ih =>
    by_cases hold : call < (initial.run as).calls.length
    · obtain ⟨before, frame, between, rfl, hlength⟩ := ih hold
      exact ⟨before, frame, between ++ [a], by simp, hlength⟩
    · rw [run_append] at h
      cases a with
      | attend change => exact absurd h hold
      | deliver frame =>
        have hlast : call < (initial.run as).calls.length + 1 := by simpa [run, step] using h
        exact ⟨as, frame, [], rfl, by omega⟩
      | forget call' => exact absurd (by simpa [run, step] using h) hold

/-- The names that a call notes are those of the observers whose mailboxes are not read. -/
theorem mem_failed_iff {b : Broadcaster} {frame : ObserverFrame} {id : String} :
    id ∈ (b.deliver frame).1.failed ↔ ∃ o ∈ b.observers, o.id = id ∧ b.isAlive o = false := by
  simp only [Broadcaster.deliver, List.mem_map, List.mem_filter, Bool.not_eq_true']
  constructor
  · rintro ⟨o, ⟨ho, hdead⟩, rfl⟩
    exact ⟨o, ho, rfl, hdead⟩
  · rintro ⟨o, ho, rfl, hdead⟩
    exact ⟨o, ⟨ho, hdead⟩, rfl⟩

/-- What a call that began after some actions has still to forget after others. -/
theorem getElem?_calls_delivered (before between : List Action) (frame : ObserverFrame) :
    let noted := ((initial.run before).broadcaster.deliver frame).1.failed
    let call := (initial.run before).calls.length
    let later := initial.run (before ++ .deliver frame :: between)
    (.forget call ∉ between → later.calls[call]? = some noted) ∧ (.forget call ∈ between → later.calls[call]? = some []) := by
  intro noted call later
  have hlast : ((initial.run before).step (.deliver frame)).calls[call]? = some noted := by
    simp [step, call, noted]
  have hlater : later = ((initial.run before).step (.deliver frame)).run between := by
    rw [← run_cons, ← run_append]
  rw [hlater, ← hlast]
  exact getElem?_calls_run (List.getElem?_eq_some_iff.1 hlast).1

/-! ## Whom calls of publish lose -/

/-- An observer whose name a call notes for its delivery was not served then; if it is served later, it was added in
between. -/
theorem added_of_noted {before between : List Action} {frame : ObserverFrame}
    (hs : (initial.run (before ++ .deliver frame :: between)).broadcaster.Serves o)
    (hnoted : ∃ o' ∈ (initial.run before).broadcaster.observers,
      o'.id = o.id ∧ (initial.run before).broadcaster.isAlive o' = false) :
    .attend (.add o.id o.connectedAt) ∈ between := by
  have hsound : (initial.run before).broadcaster.Sound := sound_run Broadcaster.sound_empty before
  rw [run_append, run_cons] at hs
  rcases serves_of_run (sound_step hsound _) hs with hserved | hadded
  · obtain ⟨o', ho', hid, hdead⟩ := hnoted
    have hbefore : (initial.run before).broadcaster.Serves o := Broadcaster.serves_of_send hsound hserved
    obtain rfl := List.inj_on_of_nodup_map hsound.names ho' hbefore.registered hid
    rw [hbefore.alive] at hdead
    cases hdead
  · exact hadded

/-- **Which observers are lost though their mailboxes are read.** Delivering a frame loses nobody. A call that forgets the
names that it noted loses an observer exactly if the name was noted for another one, whose mailbox was not read, and the
observer was added under it since then. -/
theorem loses_live_observer_iff (actions : List Action) (a : Action) (o : Observer) :
    (initial.run actions).Loses a o ↔
      o ∈ (initial.run actions).broadcaster.observers ∧ (initial.run actions).broadcaster.isAlive o = true ∧
      ∃ before frame between, actions = before ++ .deliver frame :: between ∧
        a = .forget (initial.run before).calls.length ∧ a ∉ between ∧
        (∃ o' ∈ (initial.run before).broadcaster.observers,
          o'.id = o.id ∧ (initial.run before).broadcaster.isAlive o' = false) ∧
        .attend (.add o.id o.connectedAt) ∈ between := by
  have hsound : (initial.run actions).broadcaster.Sound := sound_run Broadcaster.sound_empty actions
  constructor
  · rintro ⟨hregistered, halive, hpublishing, hgone⟩
    refine ⟨hregistered, halive, ?_⟩
    cases a with
    | attend change => exact hpublishing.elim
    | deliver frame => exact absurd hregistered hgone
    | forget call =>
      have hmem : o.id ∈ (initial.run actions).calls[call]?.getD [] := by
        by_contra hnot
        exact hgone (Broadcaster.mem_observers_forget.2 ⟨hregistered, hnot⟩)
      have hlt : call < (initial.run actions).calls.length := by
        by_contra hge
        simp [List.getElem?_eq_none (Nat.not_lt.1 hge)] at hmem
      obtain ⟨before, frame, between, rfl, rfl⟩ := exists_delivery hlt
      obtain ⟨hnoted, hdone⟩ := getElem?_calls_delivered before between frame
      -- Names are forgotten once: a call that has been at it has none left to lose the observer by.
      have hpending : .forget (initial.run before).calls.length ∉ between := by
        intro hin
        simp [hdone hin] at hmem
      rw [hnoted hpending, Option.getD_some, mem_failed_iff] at hmem
      exact ⟨before, frame, between, rfl, rfl, hpending, hmem, added_of_noted ⟨hsound, hregistered, halive⟩ hmem⟩
  · rintro ⟨hregistered, halive, before, frame, between, rfl, rfl, hpending, hnoted, -⟩
    refine ⟨hregistered, halive, trivial, fun hkept => ?_⟩
    refine (Broadcaster.mem_observers_forget.1 hkept).2 ?_
    rw [(getElem?_calls_delivered before between frame).1 hpending, Option.getD_some]
    exact mem_failed_iff.2 hnoted

/-- **A call loses a new observer** under a name that it noted for an old one. -/
theorem late_removal_loses_new_observer :
    (initial.run [.attend (.add "watcher" 1), .attend (.leave 0), .deliver (.close 2), .attend (.add "watcher" 3)]).Loses
      (.forget 0) ⟨"watcher", 1, 3⟩ where
  registered := by decide
  alive := by decide
  publishing := trivial
  gone := by decide

end Relay

end ScriptRunner
