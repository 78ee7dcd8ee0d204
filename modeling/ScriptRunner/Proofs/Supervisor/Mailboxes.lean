import Mathlib.Data.List.Nodup
import ScriptRunner.Proofs.Supervisor.Interleaving

/-!
# What reaches a mailbox

Registered observers have different names and different mailboxes (`Broadcaster.Sound`), whatever changes among them. So
an observer that is registered and whose mailbox is read (`Broadcaster.Serves`) gets each frame that is published once,
behind what waits already (`waiting_publish`), and stays registered as long as no change is about it
(`Attendance.serves_apply`).
-/

namespace ScriptRunner

namespace Broadcaster

variable {b : Broadcaster} {o : Observer}

/-- Registered observers have different names and different mailboxes. -/
structure Sound (b : Broadcaster) : Prop where
  names : (b.observers.map Observer.id).Nodup
  mailboxes : (b.observers.map Observer.mailbox).Nodup
  made : ∀ o ∈ b.observers, o.mailbox < b.mailboxes.length

theorem sound_empty : empty.Sound := ⟨List.nodup_nil, List.nodup_nil, nofun⟩

/-- The messages that wait in a mailbox, oldest first. -/
def waiting (b : Broadcaster) (mailbox : Nat) : List ObserverMessage := (b.drain mailbox).1

theorem waiting_of_getElem? {m : Mailbox} {mailbox : Nat} (h : b.mailboxes[mailbox]? = some m) :
    b.waiting mailbox = m.waiting := by
  simp [waiting, drain, h]

theorem isAlive_iff : b.isAlive o = true ↔ ∃ m, b.mailboxes[o.mailbox]? = some m ∧ m.isRead = true := by
  unfold isAlive
  cases b.mailboxes[o.mailbox]? <;> simp

/-! ## Messages to all observers -/

/-- Of mailboxes that are all different, each one is changed once. -/
theorem getElem?_foldl_modify (f : Mailbox → Mailbox) {os : List Observer} (hn : (os.map Observer.mailbox).Nodup)
    (ms : List Mailbox) (i : Nat) :
    (os.foldl (fun ms o => ms.modify o.mailbox f) ms)[i]? =
      if i ∈ os.map Observer.mailbox then ms[i]?.map f else ms[i]? := by
  induction os generalizing ms with
  | nil => simp
  | cons o os ih =>
    obtain ⟨ho, hn⟩ := List.nodup_cons.1 hn
    rw [List.foldl_cons, ih hn, List.getElem?_modify, List.map_cons]
    by_cases hi : o.mailbox = i
    · subst hi
      simp [ho]
    · simp [hi, Ne.symm hi]

theorem length_foldl_modify (f : Mailbox → Mailbox) (os : List Observer) (ms : List Mailbox) :
    (os.foldl (fun ms o => ms.modify o.mailbox f) ms).length = ms.length := by
  induction os generalizing ms with
  | nil => rfl
  | cons o os ih => rw [List.foldl_cons, ih, List.length_modify]

theorem sound_send (h : b.Sound) (messages : List ObserverMessage) : (b.send messages).Sound where
  names := h.names
  mailboxes := h.mailboxes
  made := fun o ho => by
    rw [send, length_foldl_modify]
    exact h.made o ho

theorem observers_forget (b : Broadcaster) (ids : List String) :
    (b.forget ids).observers = b.observers.filter fun o => o.id ∉ ids := by
  induction ids generalizing b with
  | nil => simp [forget]
  | cons id ids ih =>
    have hcons : b.forget (id :: ids) = (b.remove id).forget ids := rfl
    rw [hcons, ih, remove, List.filter_filter]
    exact List.filter_congr fun o _ => by rw [Bool.eq_iff_iff]; simp [and_comm]

theorem mem_observers_forget {ids : List String} : o ∈ (b.forget ids).observers ↔ o ∈ b.observers ∧ o.id ∉ ids := by
  rw [observers_forget, List.mem_filter, decide_eq_true_iff]

theorem mailboxes_forget (b : Broadcaster) (ids : List String) : (b.forget ids).mailboxes = b.mailboxes := by
  induction ids generalizing b with
  | nil => rfl
  | cons id ids ih => exact ih (b.remove id)

/-- Fewer observers. -/
theorem Sound.of_sublist (h : b.Sound) {b' : Broadcaster} (ho : b'.observers.Sublist b.observers)
    (hm : b'.mailboxes.length = b.mailboxes.length) : b'.Sound where
  names := h.names.sublist (ho.map _)
  mailboxes := h.mailboxes.sublist (ho.map _)
  made := fun o hmem => hm ▸ h.made o (ho.subset hmem)

theorem sublist_forget (b : Broadcaster) (ids : List String) : (b.forget ids).observers.Sublist b.observers := by
  rw [observers_forget]
  exact List.filter_sublist

theorem sound_publish (h : b.Sound) (frame : ObserverFrame) : (b.publish frame).2.Sound :=
  (sound_send h _).of_sublist (sublist_forget _ _) (by rw [publish, mailboxes_forget]; rfl)

/-! ## An observer that is served -/

/-- The observer is registered and its mailbox is read. -/
structure Serves (b : Broadcaster) (o : Observer) : Prop where
  sound : b.Sound
  registered : o ∈ b.observers
  alive : b.isAlive o = true

theorem Serves.getElem?_send (h : b.Serves o) (messages : List ObserverMessage) :
    ∃ m, b.mailboxes[o.mailbox]? = some m ∧
      (b.send messages).mailboxes[o.mailbox]? = some ⟨m.waiting ++ messages, true⟩ := by
  obtain ⟨m, hm, hread⟩ := isAlive_iff.1 h.alive
  refine ⟨m, hm, ?_⟩
  rw [send, getElem?_foldl_modify _ h.sound.mailboxes, if_pos (List.mem_map_of_mem h.registered), hm]
  simp [put, hread]

/-- **A served observer gets what is published**, behind what waits already. -/
theorem Serves.waiting_publish (h : b.Serves o) (frame : ObserverFrame) :
    (b.publish frame).2.waiting o.mailbox = b.waiting o.mailbox ++ [.text frame.json.compact] := by
  obtain ⟨m, hm, hsent⟩ := h.getElem?_send [.text frame.json.compact]
  have hafter : (b.publish frame).2.mailboxes[o.mailbox]? = some ⟨m.waiting ++ [.text frame.json.compact], true⟩ := by
    rw [publish, mailboxes_forget]
    exact hsent
  rw [waiting_of_getElem? hm, waiting_of_getElem? hafter]

/-- A delivery that fails is about other observers. -/
theorem Serves.publish (h : b.Serves o) (frame : ObserverFrame) : (b.publish frame).2.Serves o where
  sound := sound_publish h.sound frame
  registered := by
    refine mem_observers_forget.2 ⟨h.registered, fun hfailed => ?_⟩
    obtain ⟨o', ho', hid⟩ := List.mem_map.1 hfailed
    obtain ⟨hmem, hdead⟩ := List.mem_filter.1 ho'
    obtain rfl := List.inj_on_of_nodup_map h.sound.names hmem h.registered hid
    simp [h.alive] at hdead
  alive := by
    obtain ⟨m, -, hsent⟩ := h.getElem?_send [.text frame.json.compact]
    have hafter : (b.publish frame).2.mailboxes = (b.send [.text frame.json.compact]).mailboxes := mailboxes_forget _ _
    exact isAlive_iff.2 ⟨_, hafter ▸ hsent, rfl⟩

end Broadcaster

/-! ## Changes among the observers -/

namespace Attendance

variable {b : Broadcaster} {o : Observer}

theorem sound_apply (h : b.Sound) (change : Attendance) : (change.apply b).Sound := by
  cases change with
  | add id now =>
    have hkept : (b.observers.filter fun o => o.id != id).Sublist b.observers := List.filter_sublist
    refine ⟨?_, ?_, fun o ho => ?_⟩
    · have hnew : id ∉ (b.observers.filter fun o => o.id != id).map Observer.id := by simp
      simp only [apply, Broadcaster.add, List.map_append, List.map_cons, List.map_nil]
      exact (List.perm_append_singleton _ _).nodup_iff.2 (List.nodup_cons.2 ⟨hnew, h.names.sublist (hkept.map _)⟩)
    · have hnew : b.mailboxes.length ∉ (b.observers.filter fun o => o.id != id).map Observer.mailbox := by
        intro hm
        obtain ⟨o, ho, he⟩ := List.mem_map.1 hm
        exact absurd (h.made o (hkept.subset ho)) (by omega)
      simp only [apply, Broadcaster.add, List.map_append, List.map_cons, List.map_nil]
      exact (List.perm_append_singleton _ _).nodup_iff.2 (List.nodup_cons.2 ⟨hnew, h.mailboxes.sublist (hkept.map _)⟩)
    · have hlength : (apply b (add id now)).mailboxes.length = b.mailboxes.length + 1 := by
        simp [apply, Broadcaster.add]
      rw [hlength]
      rcases List.mem_append.1 ho with ho | ho
      · exact Nat.lt_succ_of_lt (h.made o (hkept.subset ho))
      · rw [List.mem_singleton.1 ho]
        exact Nat.lt_succ_self _
  | remove id => exact h.of_sublist List.filter_sublist rfl
  | leave mailbox => exact h.of_sublist (List.Sublist.refl _) (List.length_modify _ _ _)
  | read mailbox => exact h.of_sublist (List.Sublist.refl _) (List.length_modify _ _ _)
  | shutdown now => exact (Broadcaster.sound_send h _).of_sublist (List.nil_sublist _) rfl

/-- The change does not end the service of the observer. -/
def Spares (o : Observer) : Attendance → Prop
  | add id _ | remove id => o.id ≠ id
  | leave mailbox => o.mailbox ≠ mailbox
  | read _ => True
  | shutdown _ => False

/-- The messages of the mailbox are read. -/
def reads (mailbox : Nat) : Attendance → Bool
  | read m => m == mailbox
  | _ => false

/-- The mailbox of an observer is changed only by those who read it. -/
theorem getElem?_apply (h : b.Serves o) {change : Attendance} (hs : change.Spares o) :
    (change.apply b).mailboxes[o.mailbox]? =
      b.mailboxes[o.mailbox]?.map fun m => ⟨if change.reads o.mailbox then [] else m.waiting, m.isRead⟩ := by
  have hlt := h.sound.made o h.registered
  cases change with
  | add id now => simp [apply, reads, Broadcaster.add, List.getElem?_append_left hlt, hlt]
  | remove id => simp [apply, reads, Broadcaster.remove]
  | leave mailbox => simp [apply, reads, Broadcaster.abandonMailbox, Ne.symm hs]
  | read mailbox => by_cases hm : mailbox = o.mailbox <;> simp [apply, reads, Broadcaster.drain, hm]
  | shutdown now => exact hs.elim

/-- **An observer that is spared stays served.** -/
theorem serves_apply (h : b.Serves o) {change : Attendance} (hs : change.Spares o) : (change.apply b).Serves o where
  sound := sound_apply h.sound change
  registered := by
    cases change with
    | add id now => exact List.mem_append_left _ (List.mem_filter.2 ⟨h.registered, bne_iff_ne.2 hs⟩)
    | remove id => exact List.mem_filter.2 ⟨h.registered, bne_iff_ne.2 hs⟩
    | leave mailbox => exact h.registered
    | read mailbox => exact h.registered
    | shutdown now => exact hs.elim
  alive := by
    obtain ⟨m, hm, hread⟩ := Broadcaster.isAlive_iff.1 h.alive
    have hafter := getElem?_apply h hs
    rw [hm, Option.map_some] at hafter
    exact Broadcaster.isAlive_iff.2 ⟨_, hafter, hread⟩

theorem waiting_apply (h : b.Serves o) {change : Attendance} (hs : change.Spares o) :
    (change.apply b).waiting o.mailbox = if change.reads o.mailbox then [] else b.waiting o.mailbox := by
  obtain ⟨m, hm, -⟩ := Broadcaster.isAlive_iff.1 h.alive
  have hafter := getElem?_apply h hs
  rw [hm, Option.map_some] at hafter
  rw [Broadcaster.waiting_of_getElem? hafter, Broadcaster.waiting_of_getElem? hm]

end Attendance

end ScriptRunner
