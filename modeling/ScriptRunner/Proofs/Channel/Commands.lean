import ScriptRunner.Channel.Exchange
import ScriptRunner.Proofs.Channel.Frames
import ScriptRunner.Proofs.Text.Encoding
import ScriptRunner.Web.ChildRoutes

/-!
# A command and its answer

A command goes out in an envelope and comes in with its value read anew (`Command.carried?`). The endpoint of a process
asks its handler exactly for the commands that it can read (`serveControl_of_command?`, `serveControl_of_unread`), and
answers for the task and with the number of the request. So the sender never learns of another task: it has its answer
if both messages could be read and the handler gave no error text (`CommandHandler.roundTrip_eq_ok_iff`).
-/

namespace ScriptRunner

open Json

/-! ## Commands in envelopes -/

namespace Command

variable {c d : Command} {t : Instant}

/-- Where the value of a command stands in its envelope. -/
def valuePlace : Place := ⟨[.field "value", .field "message"], 125⟩

/-- The command as it is read from its own text: its value is a new one, if there is room for it. -/
def carried? (c : Command) : Option Command :=
  (Decoder.any valuePlace (written c.value)).toOption.map fun v => { c with value := v }

/-- The bytes of the envelope in which the command travels. -/
def bytes (c : Command) (t : Instant) : Text.Bytes :=
  Text.encodeUtf8 ((Envelope.wrap c t).json Command.json).compact

/-- The request that brings the command to a process. -/
def post (c : Command) (t : Instant) : Http.Request := ⟨"POST", "/cmd", some "application/json", c.bytes t⟩

theorem body_post (c : Command) (t : Instant) : (c.post t).body = c.bytes t := by rw [post]

theorem route_post (c : Command) (t : Instant) :
    Http.pathOf (c.post t).target = "/cmd" ∧ (c.post t).method = "POST" :=
  ⟨show Http.pathOf "/cmd" = "/cmd" by decide, rfl⟩

theorem carried?_eq_some_iff :
    c.carried? = some d ↔ ∃ v, Decoder.any valuePlace (written c.value) = .ok v ∧ { c with value := v } = d := by
  rw [carried?]
  cases Decoder.any valuePlace (written c.value) <;> simp [Except.toOption]

/-- Only the value is read anew. -/
theorem eq_of_carried? (h : c.carried? = some d) : d = { c with value := d.value } := by
  obtain ⟨v, -, rfl⟩ := carried?_eq_some_iff.1 h
  rfl

/-- A stored value arrives as it is, if it arrives. -/
theorem carried?_eq_some_iff_of_stored (hs : Stored c.value) (hf : ∀ x ∈ c.value.floats, ReadsBack x) :
    c.carried? = some d ↔ c.value.depth ≤ 125 ∧ d = c := by
  rw [carried?_eq_some_iff]
  constructor
  · rintro ⟨v, hv, rfl⟩
    have hd : c.value.depth ≤ 125 := depth_le_of_any hv
    rw [any_written hs hf hd] at hv
    exact ⟨hd, by rw [← Except.ok.inj hv]⟩
  · rintro ⟨hd, rfl⟩
    exact ⟨d.value, any_written hs hf hd, rfl⟩

theorem decoder_written (c : Command) (p : Place) :
    Command.decoder p (written c.json) = Decoder.inside p fun q =>
      (Decoder.any (q.under (.field "value")) (written c.value)).map fun v => { c with value := v } := by
  unfold Command.decoder
  rw [Command.json, written, Json.decoder_written (by decide) rfl]
  congr 1
  funext q
  simp only [Fields.inOrder, Field.required, Field.withDefault, List.map_cons, List.headD_cons, List.tail_cons,
    uint32_written, uint64_written, boolean_written, text_written]
  cases Decoder.any (q.under (.field "value")) (written c.value) <;> rfl

/-- **What is read from the envelope of a command.** -/
theorem decodeBytes_eq_ok_iff (ht : t.isValid = true) {e : Envelope Command} :
    decodeBytes (Envelope.decoder Command.decoder) (c.bytes t) = .ok e ↔
      ∃ d, c.carried? = some d ∧ Envelope.wrap d t = e := by
  have hread : decodeBytes (Envelope.decoder Command.decoder) (c.bytes t) =
      Decoder.inside ⟨[], 127⟩ fun q => (Command.decoder (q.under (.field "message")) (written c.json)).map
        fun m => Envelope.wrap m t := by
    rw [decodeBytes, bytes, Text.decodeMarked_encodeUtf8, compact, String.toList_ofList, decodeChars_chars]
    exact Envelope.decoder_written (e := Envelope.wrap c t) ht ⟨[], 127⟩
  rw [hread]
  constructor
  · intro h
    obtain ⟨n, hn, h⟩ := Decoder.inside_eq_ok_iff.1 h
    obtain rfl : 126 = n := Nat.succ.inj hn
    obtain ⟨d, hd, rfl⟩ := map_eq_ok_iff.1 h
    rw [decoder_written] at hd
    obtain ⟨n, hn, hd⟩ := Decoder.inside_eq_ok_iff.1 hd
    obtain rfl : 125 = n := Nat.succ.inj hn
    exact ⟨d, carried?_eq_some_iff.2 (map_eq_ok_iff.1 hd), rfl⟩
  · rintro ⟨d, hd, rfl⟩
    refine Decoder.inside_eq_ok_iff.2 ⟨126, rfl, map_eq_ok_iff.2 ⟨d, ?_, rfl⟩⟩
    rw [decoder_written]
    exact Decoder.inside_eq_ok_iff.2 ⟨125, rfl, map_eq_ok_iff.2 (carried?_eq_some_iff.1 hd)⟩

end Command

/-! ## The endpoint of a process -/

/-- The command that the endpoint of a process reads from a request. -/
def Http.Request.command? (r : Http.Request) : Option Command :=
  if Http.pathOf r.target ≠ "/cmd" ∨ r.method ≠ "POST" then none
  else
    match decodeBytes (Envelope.decoder Command.decoder) r.body with
    | .ok e => if e.isCompatible then some e.message else none
    | .error _ => none

section Endpoint

variable {handler : CommandHandler} {now : Instant} {r : Http.Request} {c : Command}

/-- A command that can be read is executed, and the answer is the handler's. -/
theorem serveControl_of_command? (h : r.command? = some c) :
    handler.serveControl now r = .json 200 ((Envelope.wrap (handler.answer c) now).json Command.json) := by
  unfold Http.Request.command? at h
  split at h
  · cases h
  · rename_i hroute
    obtain ⟨hpath, hmethod⟩ := not_or.1 hroute
    unfold CommandHandler.serveControl CommandHandler.serve
    rw [if_neg hpath, if_neg hmethod]
    split at h
    · rename_i e he
      split at h
      · rename_i hv
        obtain rfl := Option.some.inj h
        simp only [he, hv, ↓reduceIte]
      · cases h
    · cases h

/-- A request without a command is answered without a handler. -/
theorem serveControl_of_unread (h : r.command? = none) (handler' : CommandHandler) (now' : Instant) :
    handler.serveControl now r = handler'.serveControl now' r := by
  unfold Http.Request.command? at h
  unfold CommandHandler.serveControl
  split at h
  · rename_i hroute
    by_cases hpath : Http.pathOf r.target = "/cmd"
    · have hmethod : r.method ≠ "POST" := hroute.resolve_left (not_not.2 hpath)
      simp only [hpath, hmethod, ne_eq, not_true_eq_false, not_false_eq_true, ↓reduceIte]
    · simp only [hpath, ne_eq, not_false_eq_true, ↓reduceIte]
  · unfold CommandHandler.serve
    split at h
    · rename_i e he
      split at h
      · cases h
      · rename_i hv
        simp only [he, hv, Bool.false_eq_true, ↓reduceIte]
    · rename_i f hf
      simp only [hf]

theorem command?_post (ht : now.isValid = true) : (c.post now).command? = c.carried? := by
  obtain ⟨hpath, hmethod⟩ := Command.route_post c now
  unfold Http.Request.command?
  rw [if_neg (not_or.2 ⟨not_not.2 hpath, not_not.2 hmethod⟩), Command.body_post]
  cases hc : c.carried? with
  | some d =>
    rw [(Command.decodeBytes_eq_ok_iff ht).2 ⟨d, hc, rfl⟩]
    rfl
  | none =>
    cases he : decodeBytes (Envelope.decoder Command.decoder) (c.bytes now) with
    | error f => rfl
    | ok e =>
      obtain ⟨d, hd, -⟩ := (Command.decodeBytes_eq_ok_iff ht).1 he
      cases hc.symm.trans hd

end Endpoint

/-! ## The sender -/

theorem Envelope.isCompatible_wrap {α : Type} (message : α) (t : Instant) :
    (Envelope.wrap message t).isCompatible = true :=
  rfl

namespace Http

/-- The bytes of a body. -/
def Body.bytes : Body → Text.Bytes
  | empty => []
  | text content => Text.encodeUtf8 content
  | json value => Text.encodeUtf8 value.compact

/-- What the sender of a request makes of its answer. -/
def Response.exchange (r : Response) : Exchange := .answered r.status r.body.bytes

end Http

/-- A text that begins like no value is no envelope. -/
theorem Envelope.decodeBytes_ne_ok {α : Type} {message : Decoder Scalar α} {text : String} {cs : List Char}
    {e : Envelope α} (h : text.toList = 'D' :: cs) :
    decodeBytes (Envelope.decoder message) (Text.encodeUtf8 text) ≠ .ok e := by
  have hread : (read ('D' :: cs)).document = .damaged := rfl
  rw [decodeBytes, Text.decodeMarked_encodeUtf8, h, decodeChars]
  intro h
  obtain ⟨a, ha, -⟩ := bind_eq_ok_iff.1 h
  rw [hread] at ha
  have hmismatch : Decoder.mismatch (σ := Scalar) "struct MessageEnvelope" ⟨[], 127⟩ .damaged = .ok a := ha
  exact Decoder.mismatch_ne_ok hmismatch

theorem ChannelError.toList_deserialization (detail : String) :
    ∃ cs, (deserialization detail).message.toList = 'D' :: cs := by
  have hmessage : (deserialization detail).message = "Deserialization error: " ++ detail := by
    delta message
    rfl
  rw [hmessage, String.toList_append]
  exact ⟨_, rfl⟩

/-- A refusal that begins like no value is told to the sender as it is. -/
theorem Exchange.outcome_refused {text : String} {cs : List Char} (c : Command) (h : text.toList = 'D' :: cs) :
    (Exchange.answered 400 (Text.encodeUtf8 text)).outcome c =
      .error (.remote (refusal 400 (Text.encodeUtf8 text))) := by
  have hstatus : Http.isSuccess 400 = false := by decide
  rw [outcome]
  cases hbody : decodeBytes (Envelope.decoder Command.decoder) (Text.encodeUtf8 text) with
  | ok e => exact absurd hbody (Envelope.decodeBytes_ne_ok h)
  | error failure => simp only [hstatus, Bool.false_eq_true, ↓reduceIte]

/-- An answer of this version for the task of its request is judged by its error text. -/
theorem Exchange.check_wrap {c a : Command} (htask : a.taskId = c.taskId) (t : Instant) :
    Exchange.check c (Envelope.wrap a t) = if a.isError then .error (.remote a.error) else .ok a := by
  have hversion : ¬(!(Envelope.wrap a t).isCompatible) = true := by
    rw [Envelope.isCompatible_wrap]
    decide
  have hsame : ¬(Envelope.wrap a t).message.taskId ≠ c.taskId := not_not.2 htask
  rw [Exchange.check, if_neg hversion, if_neg hsame]
  rfl

namespace CommandHandler

/-- What the sender of a command is told by a process with this handler. -/
def roundTrip (handler : CommandHandler) (sentAt servedAt : Instant) (c : Command) : Except ChannelError Command :=
  (handler.serveControl servedAt (c.post sentAt)).exchange.outcome c

variable {handler : CommandHandler} {t u : Instant} {c d a : Command}

/-- The answer goes to the task and has the number of its request. -/
theorem answer_ids (handler : CommandHandler) (c : Command) :
    (handler.answer c).taskId = c.taskId ∧ (handler.answer c).unique = c.unique := by
  unfold answer
  split <;> exact ⟨rfl, rfl⟩

/-- The handler gave no error text. -/
theorem error_answer_eq_empty_iff :
    (handler.answer c).error = "" ↔ (∃ v, handler c = .ok v) ∨ handler c = .error "" := by
  unfold answer
  cases handler c <;> simp [Command.reply, Command.replyError]

/-- So does what arrives of the answer to what arrived of the request. -/
theorem ids_of_carried? (hd : c.carried? = some d) (ha : (handler.answer d).carried? = some a) :
    a.taskId = c.taskId ∧ a.unique = c.unique := by
  obtain ⟨htask, hunique⟩ := answer_ids handler d
  rw [Command.eq_of_carried? ha, Command.eq_of_carried? hd] at *
  exact ⟨htask, hunique⟩

theorem roundTrip_of_read (ht : t.isValid = true) (hd : c.carried? = some d) :
    handler.roundTrip t u c = (Exchange.answered 200 ((handler.answer d).bytes u)).outcome c := by
  have hserved : handler.serveControl u (c.post t) = _ := serveControl_of_command? ((command?_post ht).trans hd)
  rw [roundTrip, hserved, Http.Response.json, Http.Response.exchange, Http.Body.bytes, Command.bytes]

/-- A command that cannot be read is refused. -/
theorem roundTrip_of_unread (ht : t.isValid = true) (hc : c.carried? = none) :
    ∃ text, handler.roundTrip t u c = .error (.remote text) := by
  obtain ⟨hpath, hmethod⟩ := Command.route_post c t
  cases he : decodeBytes (Envelope.decoder Command.decoder) (c.bytes t) with
  | ok e =>
    obtain ⟨d, hd, -⟩ := (Command.decodeBytes_eq_ok_iff ht).1 he
    cases hc.symm.trans hd
  | error f =>
    have hrefused : handler.serveControl u (c.post t) = .text 400 (ChannelError.deserialization f.message).message := by
      rw [serveControl, if_neg (not_not.2 hpath), if_neg (not_not.2 hmethod), serve, Command.body_post, he]
    obtain ⟨cs, hstart⟩ := ChannelError.toList_deserialization f.message
    rw [roundTrip, hrefused, Http.Response.text, Http.Response.exchange, Http.Body.bytes]
    exact ⟨_, Exchange.outcome_refused c hstart⟩

/-- An answer that cannot be read. -/
theorem roundTrip_of_lost (ht : t.isValid = true) (hu : u.isValid = true) (hd : c.carried? = some d)
    (ha : (handler.answer d).carried? = none) :
    ∃ detail, handler.roundTrip t u c = .error (.deserialization detail) := by
  rw [roundTrip_of_read ht hd, Exchange.outcome]
  cases he : decodeBytes (Envelope.decoder Command.decoder) ((handler.answer d).bytes u) with
  | error f => exact ⟨f.message, rfl⟩
  | ok e =>
    obtain ⟨a, h, -⟩ := (Command.decodeBytes_eq_ok_iff hu).1 he
    cases ha.symm.trans h

/-- **The answer to a command**, whichever process it reached: the error text of the handler, or else the answer. -/
theorem roundTrip_of_carried (ht : t.isValid = true) (hu : u.isValid = true) (hd : c.carried? = some d)
    (ha : (handler.answer d).carried? = some a) :
    handler.roundTrip t u c = if a.isError then .error (.remote a.error) else .ok a := by
  rw [roundTrip_of_read ht hd, Exchange.outcome, (Command.decodeBytes_eq_ok_iff hu).2 ⟨a, ha, rfl⟩]
  exact Exchange.check_wrap (ids_of_carried? hd ha).1 u

/-- **Which commands are answered**: those that can be read, by a handler without an error text whose answer can be. -/
theorem roundTrip_eq_ok_iff (ht : t.isValid = true) (hu : u.isValid = true) :
    handler.roundTrip t u c = .ok a ↔
      ∃ d, c.carried? = some d ∧ (handler.answer d).carried? = some a ∧ a.error = "" := by
  constructor
  · intro h
    cases hd : c.carried? with
    | none =>
      obtain ⟨text, hr⟩ : ∃ text, handler.roundTrip t u c = .error (.remote text) := roundTrip_of_unread ht hd
      cases hr.symm.trans h
    | some d =>
      cases hb : (handler.answer d).carried? with
      | none =>
        obtain ⟨detail, hr⟩ := roundTrip_of_lost ht hu hd hb
        cases hr.symm.trans h
      | some b =>
        rw [roundTrip_of_carried ht hu hd hb] at h
        split at h
        · cases h
        · rename_i herror
          obtain rfl := Except.ok.inj h
          exact ⟨d, rfl, hb, by simpa [Command.isError] using herror⟩
  · rintro ⟨d, hd, ha, herror⟩
    rw [roundTrip_of_carried ht hu hd ha, if_neg (by simp [Command.isError, herror])]

end CommandHandler

end ScriptRunner
