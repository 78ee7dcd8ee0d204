import Mathlib.Data.List.Induction
import ScriptRunner.Proofs.Supervisor.Mailboxes

/-!
# What an observer is given over its time

Operations on a broadcaster follow one another (`Broadcaster.after`). An observer is served from the operation that adds
it until one ends its service: its name is added anew or removed, its mailbox is left, or all observers are told of the
end (`Broadcaster.serves_after_iff`). Each operation puts its messages into the mailboxes of the observers that are
served, and nothing else into any mailbox (`Broadcaster.taken_append_waiting`). So an observer is given the frames that
are published while it is served, each once and in order, and its last two messages if the end was announced to it
(`Broadcaster.given_exactly_while_served`).
-/

namespace ScriptRunner

/-- The message that brings a frame, the same for every observer. -/
def ObserverMessage.ofFrame (f : ObserverFrame) : ObserverMessage := .text f.json.compact

namespace Broadcaster

/-- What may be asked of a broadcaster, or done by those who read its mailboxes. -/
inductive Operation where
  | attend (change : Attendance)
  | publish (frame : ObserverFrame)

namespace Operation

def apply (b : Broadcaster) : Operation → Broadcaster
  | attend change => change.apply b
  | publish frame => (b.publish frame).2

/-- The operation does not end the service of the observer. -/
def Spares (o : Observer) : Operation → Prop
  | attend change => change.Spares o
  | publish _ => True

instance (o : Observer) : DecidablePred (Spares o)
  | attend (.add id _) => inferInstanceAs (Decidable (o.id ≠ id))
  | attend (.remove id) => inferInstanceAs (Decidable (o.id ≠ id))
  | attend (.leave mailbox) => inferInstanceAs (Decidable (o.mailbox ≠ mailbox))
  | attend (.read _) => inferInstanceAs (Decidable True)
  | attend (.shutdown _) => inferInstanceAs (Decidable False)
  | publish _ => inferInstanceAs (Decidable True)

/-- The frame that the operation publishes. -/
def frame? : Operation → Option ObserverFrame
  | publish frame => some frame
  | attend _ => none

/-- The announcement of the end: a frame that says so, and the end itself. -/
def farewell : Operation → List ObserverMessage
  | attend (.shutdown now) => [.ofFrame (.close now), .close]
  | _ => []

/-- The messages for every observer that is served. -/
def messages (op : Operation) : List ObserverMessage := (op.frame?.map ObserverMessage.ofFrame).toList ++ op.farewell

/-- The messages that are read out of a mailbox. -/
def taken (b : Broadcaster) (mailbox : Nat) : Operation → List ObserverMessage
  | attend (.read m) => if m = mailbox then b.waiting mailbox else []
  | _ => []

variable {o : Observer} {op : Operation}

theorem farewell_of_spares (h : op.Spares o) : op.farewell = [] := by
  cases op with
  | publish frame => rfl
  | attend change =>
    cases change with
    | shutdown now => exact h.elim
    | _ => rfl

theorem frame?_of_not_spares (h : ¬op.Spares o) : op.frame? = none := by
  cases op with
  | publish frame => exact absurd trivial h
  | attend change => rfl

end Operation

variable {b : Broadcaster} {o : Observer} {op : Operation} {mailbox : Nat}

/-- The broadcaster after some operations, each one brought to its end before the next. -/
def after (b : Broadcaster) (ops : List Operation) : Broadcaster := ops.foldl Operation.apply b

theorem after_append (b : Broadcaster) (ops later : List Operation) :
    b.after (ops ++ later) = (b.after ops).after later := List.foldl_append

/-- All messages that a mailbox is given: those that are read out of it during some operations, and those that wait in it
after them. -/
def given (b : Broadcaster) (mailbox : Nat) : List Operation → List ObserverMessage
  | [] => b.waiting mailbox
  | op :: ops => op.taken b mailbox ++ (op.apply b).given mailbox ops

/-- The frames that are published before the service of an observer ends. -/
def framesFor (o : Observer) (ops : List Operation) : List ObserverFrame :=
  (ops.takeWhile fun op => op.Spares o).filterMap Operation.frame?

/-- The announcement of the end, if it is what ends the service of an observer. -/
def farewellFor (o : Observer) (ops : List Operation) : List ObserverMessage :=
  ((ops.find? fun op => !decide (op.Spares o)).map Operation.farewell).getD []

/-- Among some operations the observer was added, and nothing after that ended its service. -/
def ServedSince (ops : List Operation) (o : Observer) : Prop :=
  ∃ before later, ops = before ++ .attend (.add o.id o.connectedAt) :: later ∧
    o.mailbox = ((empty.after before).add o.id o.connectedAt).1 ∧ ∀ op ∈ later, op.Spares o

/-! ## Sound broadcasters -/

theorem sound_apply (h : b.Sound) (op : Operation) : (op.apply b).Sound := by
  cases op with
  | attend change => exact change.sound_apply h
  | publish frame => exact sound_publish h frame

theorem sound_after (h : b.Sound) (ops : List Operation) : (b.after ops).Sound := by
  induction ops generalizing b with
  | nil => exact h
  | cons op ops ih => exact ih (sound_apply h op)

theorem length_mailboxes_le (b : Broadcaster) (op : Operation) :
    b.mailboxes.length ≤ (op.apply b).mailboxes.length := by
  cases op with
  | publish frame =>
    have hlength : (b.publish frame).2.mailboxes.length = b.mailboxes.length := by
      rw [publish, mailboxes_forget]
      exact length_foldl_modify _ _ _
    exact Nat.le_of_eq hlength.symm
  | attend change =>
    cases change with
    | add id now => simp [Operation.apply, Attendance.apply, add]
    | remove id => exact Nat.le_refl _
    | leave m => exact Nat.le_of_eq (List.length_modify _ _ _).symm
    | read m => exact Nat.le_of_eq (List.length_modify _ _ _).symm
    | shutdown now => exact Nat.le_of_eq (length_foldl_modify _ _ _).symm

/-- The observers after a delivery are those whose mailboxes are read. -/
theorem observers_publish (h : b.Sound) (frame : ObserverFrame) :
    (b.publish frame).2.observers = b.observers.filter b.isAlive := by
  rw [publish, observers_forget]
  refine List.filter_congr fun o ho => ?_
  rw [Bool.eq_iff_iff, decide_eq_true_iff]
  constructor
  · intro hkept
    by_contra hdead
    exact hkept (List.mem_map_of_mem (List.mem_filter.2 ⟨ho, by simpa using hdead⟩))
  · intro halive hfailed
    obtain ⟨o', ho', hid⟩ := List.mem_map.1 hfailed
    obtain ⟨hmem, hdead⟩ := List.mem_filter.1 ho'
    obtain rfl := List.inj_on_of_nodup_map h.names hmem ho hid
    simp [halive] at hdead

/-! ## What an operation puts into mailboxes -/

theorem getElem?_send (h : b.Sound) (messages : List ObserverMessage) (i : Nat) :
    (b.send messages).mailboxes[i]? =
      if i ∈ b.observers.map Observer.mailbox then b.mailboxes[i]?.map (put messages) else b.mailboxes[i]? :=
  getElem?_foldl_modify _ h.mailboxes _ _

theorem put_nil (m : Mailbox) : put [] m = m := by
  simp [put]

theorem isRead_put (messages : List ObserverMessage) (m : Mailbox) : (put messages m).isRead = m.isRead := by
  unfold put
  split <;> rfl

/-- Messages do not change who reads a mailbox. -/
theorem isAlive_send (h : b.Sound) (messages : List ObserverMessage) (o : Observer) :
    (b.send messages).isAlive o = b.isAlive o := by
  unfold isAlive
  rw [getElem?_send h]
  split
  · cases b.mailboxes[o.mailbox]? <;> simp [isRead_put]
  · rfl

theorem waiting_eq (b : Broadcaster) (i : Nat) : b.waiting i = (b.mailboxes[i]?.map Mailbox.waiting).getD [] := rfl

theorem waiting_congr {c : Broadcaster} {i : Nat}
    (h : b.mailboxes[i]?.map Mailbox.waiting = c.mailboxes[i]?.map Mailbox.waiting) : b.waiting i = c.waiting i := by
  rw [waiting_eq, waiting_eq, h]

/-- **An operation puts in its messages and nothing else**, and takes out what is read. -/
theorem taken_append_waiting (h : b.Sound) (hm : mailbox < b.mailboxes.length) (op : Operation) :
    op.taken b mailbox ++ (op.apply b).waiting mailbox = (b.send op.messages).waiting mailbox := by
  have hnone : (b.send []).waiting mailbox = b.waiting mailbox :=
    waiting_congr (by rw [getElem?_send h]; simp [funext put_nil])
  cases op with
  | publish frame =>
    show (b.publish frame).2.waiting mailbox = (b.send [.ofFrame frame]).waiting mailbox
    refine waiting_congr ?_
    rw [publish, mailboxes_forget]
    rfl
  | attend change =>
    cases change with
    | shutdown now => rfl
    | add id now =>
      refine Eq.trans (waiting_congr ?_) hnone.symm
      simp [Operation.apply, Attendance.apply, add, List.getElem?_append_left hm]
    | remove id => exact hnone.symm
    | leave m =>
      refine Eq.trans (waiting_congr ?_) hnone.symm
      simp only [Operation.apply, Attendance.apply, abandonMailbox, List.getElem?_modify]
      cases b.mailboxes[mailbox]? with
      | none => rfl
      | some k => by_cases hm : m = mailbox <;> simp [hm]
    | read m =>
      refine Eq.trans ?_ hnone.symm
      simp only [Operation.taken, Operation.apply, Attendance.apply, drain, waiting_eq, List.getElem?_modify]
      by_cases hm : m = mailbox
      · cases b.mailboxes[mailbox]? <;> simp [hm]
      · simp [hm]

/-- An observer that is served gets the messages. -/
theorem Serves.waiting_send (h : b.Serves o) (messages : List ObserverMessage) :
    (b.send messages).waiting o.mailbox = b.waiting o.mailbox ++ messages := by
  obtain ⟨m, hm, hsent⟩ := h.getElem?_send messages
  rw [waiting_of_getElem? hm, waiting_of_getElem? hsent]

/-! ## Who is served -/

theorem serves_of_attend (h : b.Sound) {change : Attendance} (hs : (change.apply b).Serves o) :
    (b.Serves o ∧ change.Spares o) ∨ (change = .add o.id o.connectedAt ∧ o.mailbox = b.mailboxes.length) := by
  have hregistered := hs.registered
  have halive := hs.alive
  cases change with
  | add id now =>
    rcases List.mem_append.1 hregistered with hmem | hnew
    · obtain ⟨hmem, hid⟩ := List.mem_filter.1 hmem
      refine .inl ⟨⟨h, hmem, ?_⟩, bne_iff_ne.1 hid⟩
      simpa [isAlive, Attendance.apply, add, List.getElem?_append_left (h.made o hmem)] using halive
    · obtain rfl := List.mem_singleton.1 hnew
      exact .inr ⟨rfl, rfl⟩
  | remove id =>
    obtain ⟨hmem, hid⟩ := List.mem_filter.1 hregistered
    exact .inl ⟨⟨h, hmem, halive⟩, bne_iff_ne.1 hid⟩
  | leave m =>
    obtain ⟨k, hk, hread⟩ := isAlive_iff.1 halive
    simp only [Attendance.apply, abandonMailbox, List.getElem?_modify] at hk
    by_cases hm : m = o.mailbox
    · obtain ⟨k', -, rfl⟩ := Option.map_eq_some_iff.1 hk
      simp [hm] at hread
    · simp only [hm, ↓reduceIte, id_map'] at hk
      exact .inl ⟨⟨h, hregistered, isAlive_iff.2 ⟨k, hk, hread⟩⟩, Ne.symm hm⟩
  | read m =>
    obtain ⟨k, hk, hread⟩ := isAlive_iff.1 halive
    simp only [Attendance.apply, drain, List.getElem?_modify] at hk
    obtain ⟨k', hk', rfl⟩ := Option.map_eq_some_iff.1 hk
    refine .inl ⟨⟨h, hregistered, isAlive_iff.2 ⟨k', hk', ?_⟩⟩, trivial⟩
    split at hread <;> exact hread
  | shutdown now => exact absurd hregistered List.not_mem_nil

theorem serves_of_send (h : b.Sound) {messages : List ObserverMessage} (hs : (b.send messages).Serves o) :
    b.Serves o :=
  ⟨h, hs.registered, (isAlive_send h messages o).symm.trans hs.alive⟩

theorem serves_of_forget (h : b.Sound) {ids : List String} (hs : (b.forget ids).Serves o) : b.Serves o := by
  refine ⟨h, (mem_observers_forget.1 hs.registered).1, ?_⟩
  have halive := hs.alive
  rwa [isAlive, mailboxes_forget] at halive

theorem serves_added (h : b.Sound) (id : String) (now : Int64) :
    (b.add id now).2.Serves ⟨id, b.mailboxes.length, now⟩ where
  sound := Attendance.sound_apply h (.add id now)
  registered := List.mem_append_right _ (List.mem_singleton.2 rfl)
  alive := by simp [isAlive, add]

/-- **The service of an observer** begins when it is added and goes on as long as it is spared. -/
theorem serves_apply_iff (h : b.Sound) : (op.apply b).Serves o ↔
    (b.Serves o ∧ op.Spares o) ∨ (op = .attend (.add o.id o.connectedAt) ∧ o.mailbox = b.mailboxes.length) := by
  constructor
  · intro hs
    cases op with
    | publish frame => exact .inl ⟨serves_of_send h (serves_of_forget (sound_send h _) hs), trivial⟩
    | attend change =>
      rcases serves_of_attend h hs with hserved | ⟨rfl, hnew⟩
      · exact .inl hserved
      · exact .inr ⟨rfl, hnew⟩
  · rintro (⟨hs, hspares⟩ | ⟨rfl, hnew⟩)
    · cases op with
      | attend change => exact Attendance.serves_apply hs hspares
      | publish frame => exact hs.publish frame
    · obtain ⟨id, mailbox, now⟩ := o
      subst hnew
      exact serves_added h id now

theorem Serves.after (h : b.Serves o) {ops : List Operation} (hs : ∀ op ∈ ops, op.Spares o) : (b.after ops).Serves o := by
  induction ops generalizing b with
  | nil => exact h
  | cons op ops ih =>
    have hnext := (serves_apply_iff h.sound).2 (.inl ⟨h, hs op List.mem_cons_self⟩)
    exact ih hnext fun op' hop' => hs op' (List.mem_cons_of_mem op hop')

/-- **The observers that are served after some operations** are those that were added and spared since then. -/
theorem serves_after_iff (ops : List Operation) : (empty.after ops).Serves o ↔ ServedSince ops o := by
  constructor
  · -- From the last operation, since `ServedSince` speaks of what came before and not of the broadcaster at the start.
    induction ops using List.reverseRecOn with
    | nil => exact fun h => absurd h.registered List.not_mem_nil
    | append_singleton ops op ih =>
      rw [after_append]
      intro h
      rcases (serves_apply_iff (sound_after sound_empty ops)).1 h with ⟨hs, hspares⟩ | ⟨rfl, hnew⟩
      · obtain ⟨before, later, rfl, hmailbox, hlater⟩ := ih hs
        refine ⟨before, later ++ [op], by simp, hmailbox, fun op' hop' => ?_⟩
        rcases List.mem_append.1 hop' with hop' | hop'
        · exact hlater op' hop'
        · rwa [List.mem_singleton.1 hop']
      · exact ⟨ops, [], rfl, hnew, fun op hop => absurd hop List.not_mem_nil⟩
  · rintro ⟨before, later, rfl, hmailbox, hlater⟩
    rw [after_append]
    exact Serves.after ((serves_apply_iff (sound_after sound_empty before)).2 (.inr ⟨rfl, hmailbox⟩)) hlater

/-! ## Idle mailboxes -/

/-- The mailbox has been made, and no observer with it is served. -/
structure Idle (b : Broadcaster) (mailbox : Nat) : Prop where
  sound : b.Sound
  made : mailbox < b.mailboxes.length
  unserved : ∀ o, b.Serves o → o.mailbox ≠ mailbox

theorem Idle.apply (h : b.Idle mailbox) (op : Operation) : (op.apply b).Idle mailbox where
  sound := sound_apply h.sound op
  made := Nat.lt_of_lt_of_le h.made (length_mailboxes_le b op)
  unserved := by
    intro o ho
    rcases (serves_apply_iff h.sound).1 ho with ⟨hs, -⟩ | ⟨-, hnew⟩
    · exact h.unserved o hs
    · exact hnew ▸ Nat.ne_of_gt h.made

/-- Nothing is put into an idle mailbox. -/
theorem Idle.waiting_send (h : b.Idle mailbox) (messages : List ObserverMessage) :
    (b.send messages).waiting mailbox = b.waiting mailbox := by
  refine waiting_congr ?_
  rw [getElem?_send h.sound]
  split
  · rename_i hmem
    obtain ⟨o, ho, rfl⟩ := List.mem_map.1 hmem
    -- The observer may still be registered, but then nobody reads its mailbox.
    cases hm : b.mailboxes[o.mailbox]? with
    | none => rfl
    | some m =>
      have hdead : m.isRead ≠ true := fun hread => h.unserved o ⟨h.sound, ho, isAlive_iff.2 ⟨m, hm, hread⟩⟩ rfl
      simp [put, hdead]
  · rfl

theorem Idle.given (h : b.Idle mailbox) (ops : List Operation) : b.given mailbox ops = b.waiting mailbox := by
  induction ops generalizing b with
  | nil => rfl
  | cons op ops ih => rw [Broadcaster.given, ih (h.apply op), taken_append_waiting h.sound h.made, h.waiting_send]

/-- What ends the service of an observer leaves its mailbox idle. -/
theorem Serves.idle (h : b.Serves o) (hs : ¬op.Spares o) : (op.apply b).Idle o.mailbox where
  sound := sound_apply h.sound op
  made := Nat.lt_of_lt_of_le (h.sound.made o h.registered) (length_mailboxes_le b op)
  unserved := by
    intro o' ho' hmailbox
    rcases (serves_apply_iff h.sound).1 ho' with ⟨hserved, hspares⟩ | ⟨-, hnew⟩
    · obtain rfl := List.inj_on_of_nodup_map h.sound.mailboxes hserved.registered h.registered hmailbox
      exact hs hspares
    · exact absurd (h.sound.made o h.registered) (by omega)

/-! ## All that an observer is given -/

/-- An observer that is served is given, behind what waits already, the frames that are published as long as it is
served, and the announcement of the end. -/
theorem Serves.given (h : b.Serves o) (ops : List Operation) : b.given o.mailbox ops =
    b.waiting o.mailbox ++ ((framesFor o ops).map ObserverMessage.ofFrame ++ farewellFor o ops) := by
  induction ops generalizing b with
  | nil => simp [Broadcaster.given, framesFor, farewellFor]
  | cons op ops ih =>
    have hstep : op.taken b o.mailbox ++ (op.apply b).waiting o.mailbox = b.waiting o.mailbox ++ op.messages := by
      rw [taken_append_waiting h.sound (h.sound.made o h.registered), h.waiting_send]
    rw [Broadcaster.given]
    by_cases hs : op.Spares o
    · rw [ih ((serves_apply_iff h.sound).2 (.inl ⟨h, hs⟩)), ← List.append_assoc, hstep, Operation.messages,
        Operation.farewell_of_spares hs]
      cases hf : op.frame? <;> simp [framesFor, farewellFor, hs, hf]
    · -- The operation still brings its own messages; behind them the mailbox stays as it is.
      rw [(h.idle hs).given, hstep, Operation.messages, Operation.frame?_of_not_spares hs]
      simp [framesFor, farewellFor, hs]

/-- **An observer is given exactly what is published while it is served.** Whatever has happened, an observer that is
added is given the frames that are published until its service ends, each once, in order and as the same text as every
other one, and then the announcement of the end exactly if this is what ended it. A delivery reaches the observers that
are registered and whose mailboxes are read, which are those that were added and spared since then, and leaves exactly
these registered. After the announcement of the end nobody is registered and every mailbox is closed. -/
theorem given_exactly_while_served (ops : List Operation) :
    (∀ id now later, let added := (empty.after ops).add id now
      added.2.given added.1 later =
        (framesFor ⟨id, added.1, now⟩ later).map ObserverMessage.ofFrame ++ farewellFor ⟨id, added.1, now⟩ later) ∧
    (∀ frame, let b := empty.after ops
      (b.publish frame).1 = (b.observers.filter b.isAlive).length ∧
        (b.publish frame).2.observers = b.observers.filter b.isAlive) ∧
    (∀ o, o ∈ (empty.after ops).observers.filter (empty.after ops).isAlive ↔ ServedSince ops o) ∧
    ∀ now, ((empty.after ops).shutdown now).observers = [] ∧
      ∀ mailbox, ((empty.after ops).shutdown now).isClosed mailbox = true := by
  have hsound := sound_after sound_empty ops
  refine ⟨fun id now later => ?_, fun frame => ⟨rfl, observers_publish hsound frame⟩, fun o => ?_,
    fun now => ⟨rfl, fun _ => rfl⟩⟩
  · set b := empty.after ops
    have hempty : (b.add id now).2.waiting b.mailboxes.length = [] := by
      simp [waiting_eq, add]
    have hgiven := (serves_added hsound id now).given later
    rwa [hempty] at hgiven
  · rw [← serves_after_iff, List.mem_filter]
    exact ⟨fun h => ⟨hsound, h.1, h.2⟩, fun h => ⟨h.registered, h.alive⟩⟩

/-- A name that is added anew goes on with a new mailbox. -/
example (f g : ObserverFrame) (now : Int64) :
    (empty.add "watcher" now).2.given 0 [.publish f, .attend (.add "watcher" now), .publish g] = [.ofFrame f] := rfl

end Broadcaster

end ScriptRunner
