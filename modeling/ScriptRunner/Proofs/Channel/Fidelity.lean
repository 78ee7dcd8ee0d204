import ScriptRunner.Proofs.Channel.Commands
import ScriptRunner.Proofs.Channel.Handoff

/-!
# What a sender hears of the outcome of its command

Request and answer pass as bytes, and the sender checks the answer that it decodes (`CommandHandler.heard`). Success and
failure have one form there and differ in the error text only, so an outcome is heard as it was unless it is a failure
without a text, which is heard as a success, or a value with a number that its text does not denote
(`CommandHandler.heard_as_handled_iff`).
-/

namespace ScriptRunner

open Json

namespace CommandHandler

variable {handler : CommandHandler} {t u : Instant} {c d : Command}

/-- What the sender of a command makes of the bytes that answer the bytes of its request. -/
def heard (handler : CommandHandler) (sentAt servedAt : Instant) (c : Command) : Except ChannelError Command := do
  let answer ← handler.serve servedAt (c.bytes sentAt)
  let received ← (decodeBytes (Envelope.decoder Command.decoder)
    (Text.encodeUtf8 (answer.json Command.json).compact)).mapError fun f => .deserialization f.message
  Exchange.check c received

/-- The sender of a command hears a success exactly if the handler had one, and then its value as the finished answer
to the command; it hears an error text of the other side exactly if the handler gave this text. -/
structure HeardAsHandled (c : Command) (handled : Except String Json) (heard : Except ChannelError Command) : Prop where
  ok_iff : ∀ a, heard = .ok a ↔ ∃ v, handled = .ok v ∧ a = c.reply v
  remote_iff : ∀ e, heard = .error (.remote e) ↔ handled = .error e

/-! ## The way of request and answer -/

/-- Of a request that can be read the sender hears the same by bytes as by way of the endpoint. -/
theorem heard_eq_roundTrip (ht : t.isValid = true) (hc : c.carried? = some d) :
    handler.heard t u c = handler.roundTrip t u c := by
  have hserved : handler.serve u (c.bytes t) = .ok (Envelope.wrap (handler.answer d) u) := by
    rw [serve, (Command.decodeBytes_eq_ok_iff ht).2 ⟨d, hc, rfl⟩]
    rfl
  rw [heard, hserved, roundTrip_of_read ht hc, Exchange.outcome, Command.bytes]
  simp only [bind, Except.bind]
  generalize decodeBytes (Envelope.decoder Command.decoder) _ = received
  cases received <;> rfl

/-- An answer that arrives is judged by its error text. -/
theorem heard_of_carried {a : Command} (ht : t.isValid = true) (hu : u.isValid = true) (hc : c.carried? = some d)
    (ha : (handler.answer d).carried? = some a) :
    handler.heard t u c = if a.isError then .error (.remote a.error) else .ok a :=
  (heard_eq_roundTrip ht hc).trans (roundTrip_of_carried ht hu hc ha)

/-- What is heard as a success has arrived. -/
theorem carried?_of_heard {a : Command} (ht : t.isValid = true) (hu : u.isValid = true) (hc : c.carried? = some d)
    (h : handler.heard t u c = .ok a) : (handler.answer d).carried? = some a := by
  rw [heard_eq_roundTrip ht hc] at h
  obtain ⟨d', hd', ha, -⟩ := (roundTrip_eq_ok_iff ht hu).1 h
  obtain rfl := Option.some.inj (hc.symm.trans hd')
  exact ha

theorem answer_of_ok {v : Json} (h : handler d = .ok v) : handler.answer d = d.reply v := by
  rw [answer, h]

theorem answer_of_error {e : String} (h : handler d = .error e) : handler.answer d = d.replyError e := by
  rw [answer, h]

/-- A failure arrives whatever its text is, since it carries no value. -/
theorem carried?_replyError (d : Command) (e : String) : (d.replyError e).carried? = some (d.replyError e) := rfl

/-- The value of a request plays no part in its answer. -/
theorem reply_of_carried (hc : c.carried? = some d) (v : Json) : d.reply v = c.reply v := by
  rw [Command.eq_of_carried? hc]
  rfl

theorem heard_of_error {e : String} (ht : t.isValid = true) (hu : u.isValid = true) (hc : c.carried? = some d)
    (h : handler d = .error e) :
    handler.heard t u c = if e = "" then .ok (c.reply .null) else .error (.remote e) := by
  rw [heard_of_carried ht hu hc (a := d.replyError e) (by rw [answer_of_error h, carried?_replyError]),
    ← reply_of_carried hc]
  by_cases he : e = ""
  · subst he
    rfl
  · simp [Command.isError, Command.replyError, he]

/-- A value is heard exactly if its text denotes it. -/
theorem heard_eq_reply_iff {v : Json} (ht : t.isValid = true) (hu : u.isValid = true) (hc : c.carried? = some d)
    (h : handler d = .ok v) :
    handler.heard t u c = .ok (c.reply v) ↔ Decoder.any Command.valuePlace (written v) = .ok v := by
  rw [← reply_of_carried hc]
  have harrived : (handler.answer d).carried? = some (d.reply v) ↔
      Decoder.any Command.valuePlace (written v) = .ok v := by
    rw [answer_of_ok h, Command.carried?_eq_some_iff]
    constructor
    · rintro ⟨w, hw, he⟩
      rw [show w = v from congrArg Command.value he] at hw
      exact hw
    · exact fun hw => ⟨v, hw, rfl⟩
  rw [← harrived]
  exact ⟨carried?_of_heard ht hu hc, fun ha => heard_of_carried ht hu hc ha⟩

/-! ## The outcome -/

/-- **The outcome of a command is heard as it was** exactly if it is no failure without a text and no value with a number
that does not read back. A failure without a text is heard as a success without a value. -/
theorem heard_as_handled_iff (ht : t.isValid = true) (hu : u.isValid = true) (hc : c.carried? = some d)
    (hv : ∀ v, handler d = .ok v → Stored v ∧ v.depth ≤ 125) :
    (HeardAsHandled c (handler d) (handler.heard t u c) ↔
      handler d ≠ .error "" ∧ ∀ v, handler d = .ok v → ∀ x ∈ v.floats, ReadsBack x) ∧
    (handler d = .error "" → handler.heard t u c = .ok (c.reply .null)) := by
  refine ⟨?_, fun h => by rw [heard_of_error ht hu hc h, if_pos rfl]⟩
  cases h : handler d with
  | error e =>
    have hheard := heard_of_error ht hu hc h
    constructor
    · intro hf
      refine ⟨fun he => ?_, nofun⟩
      rw [if_pos (Except.error.inj he)] at hheard
      obtain ⟨v, hok, -⟩ := (hf.ok_iff _).1 hheard
      cases hok
    · rintro ⟨he, -⟩
      rw [if_neg fun hempty => he (congrArg _ hempty)] at hheard
      rw [hheard]
      exact ⟨fun a => by simp, fun e' => by simp⟩
  | ok v =>
    obtain ⟨hs, hd⟩ := hv v h
    have hheard : handler.heard t u c = .ok (c.reply v) ↔ _ :=
      (heard_eq_reply_iff ht hu hc h).trans (any_written_eq_ok_iff hs)
    constructor
    · intro hf
      refine ⟨nofun, ?_⟩
      rintro w ⟨⟩
      exact (hheard.1 ((hf.ok_iff _).2 ⟨v, rfl, rfl⟩)).2
    · rintro ⟨-, hfloats⟩
      rw [hheard.2 ⟨hd, hfloats v rfl⟩]
      exact ⟨fun a => by simp [eq_comm], fun e => by simp⟩

/-- A command that is echoed. -/
def echoed (v : Json) : Command := .request 5 7 "echo" v

theorem echo_echoed (v : Json) : echo (echoed v) = .ok v := rfl

theorem carried?_echoed {v : Json} (hs : Stored v) (hf : ∀ x ∈ v.floats, ReadsBack x) (hd : v.depth ≤ 125) :
    (echoed v).carried? = some (echoed v) :=
  (Command.carried?_eq_some_iff_of_stored hs hf).2 ⟨hd, rfl⟩

/-- A number in arrays is heard as it was. -/
theorem echoed_number_is_heard :
    HeardAsHandled (echoed (Handoff.nested 125)) (.ok (Handoff.nested 125))
      (echo.heard Handoff.deepTime Handoff.deepTime (echoed (Handoff.nested 125))) := by
  have hs := Handoff.stored_nested 125
  have hd : (Handoff.nested 125).depth ≤ 125 := Nat.le_of_eq (Handoff.depth_nested 125)
  have hf : ∀ x ∈ (Handoff.nested 125).floats, ReadsBack x := by
    rw [Handoff.floats_nested]
    simpa using Handoff.readsBack_half
  have hc := carried?_echoed hs hf hd
  have hv : ∀ v, echo (echoed (Handoff.nested 125)) = .ok v → v = Handoff.nested 125 := by
    intro v h
    exact (Except.ok.inj ((echo_echoed _).symm.trans h)).symm
  rw [← echo_echoed]
  refine (heard_as_handled_iff (by decide) (by decide) hc ?_).1.2 ⟨?_, ?_⟩
  · intro v h
    rw [hv v h]
    exact ⟨hs, hd⟩
  · rw [echo_echoed]
    nofun
  · intro v h
    rw [hv v h]
    exact hf

/-- A handler that fails without a text. -/
def silent : CommandHandler := fun _ => .error ""

/-- **A failure without a text is taken for a success.** -/
theorem silent_failure_is_heard_as_success :
    silent.heard Handoff.deepTime Handoff.deepTime (echoed .null) = .ok ((echoed .null).reply .null) ∧
      ¬HeardAsHandled (echoed .null) (silent (echoed .null))
        (silent.heard Handoff.deepTime Handoff.deepTime (echoed .null)) := by
  have hc : (echoed .null).carried? = some (echoed .null) := rfl
  have hheard : silent.heard Handoff.deepTime Handoff.deepTime (echoed .null) = _ :=
    heard_of_error (by decide) (by decide) hc rfl
  rw [if_pos rfl] at hheard
  refine ⟨hheard, fun hf => ?_⟩
  obtain ⟨v, hok, -⟩ := (hf.ok_iff _).1 hheard
  cases hok

end CommandHandler

end ScriptRunner
