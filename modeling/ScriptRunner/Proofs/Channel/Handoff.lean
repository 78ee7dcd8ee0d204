import ScriptRunner.Channel.Handoff
import ScriptRunner.Proofs.Channel.Frames
import ScriptRunner.Proofs.Supervisor.Answers
import ScriptRunner.Proofs.Text.Encoding
import ScriptRunner.Supervisor.Preparation

/-!
# Handing a run to its process

A job stands on two lines, since no character of compact JSON ends a line (`Handoff.writtenLines_encode`). The line of
the header reads back exactly if the header leaves room for the envelope and the frame around it
(`Handoff.decode_encode`, `Handoff.decode_encode_error`). What a request from a text brings is stored, so of an accepted
run only the depth of its data and of its other fields decides whether its process takes the job.
-/

namespace ScriptRunner

open Json

namespace Handoff

variable {h : Header} {b : Bytecode} {t u : Instant} {frame : HandoffFrame}

/-! ## The two lines -/

theorem toList_frameLine (frame : HandoffFrame) (now : Instant) :
    (frameLine frame now).toList = chars ((Envelope.wrap frame now).json HandoffFrame.json) := by
  rw [frameLine, compact, String.toList_ofList]

theorem not_end_of_mem_frameLine (frame : HandoffFrame) (now : Instant) (c : Char)
    (hc : c ∈ (frameLine frame now).toList) : c ≠ '\n' ∧ c ≠ '\r' := by
  rw [toList_frameLine] at hc
  have hplain := plain_chars _ c hc
  constructor <;> rintro rfl <;> exact absurd hplain (by decide)

theorem not_blank_frameLine (frame : HandoffFrame) (now : Instant) :
    (frameLine frame now).toList.all Text.isBlank = false := by
  rw [toList_frameLine]
  rfl

theorem writtenLines_encode (h : Header) (b : Bytecode) (t u : Instant) :
    writtenLines (encode h b t u).toList =
      [(frameLine (.header h) t).toList,
        (frameLine (.bytecode b.engine (Text.encodeBase64 b.payload)) u).toList] := by
  have hfeed : "\n".toList = ['\n'] := rfl
  have hlines : (encode h b t u).toList =
      [(frameLine (.header h) t).toList,
        (frameLine (.bytecode b.engine (Text.encodeBase64 b.payload)) u).toList].flatMap fun l => l ++ ['\n'] := by
    simp [encode, String.toList_append, hfeed]
  rw [hlines, writtenLines, Text.lines_ended]
  · simp [not_blank_frameLine]
  · have hlast := List.forall_mem_cons.2 ⟨not_end_of_mem_frameLine (.bytecode b.engine (Text.encodeBase64 b.payload)) u,
      (nofun : ∀ l ∈ [], ∀ c ∈ l, c ≠ '\n' ∧ c ≠ '\r')⟩
    exact List.forall_mem_cons.2 ⟨not_end_of_mem_frameLine (.header h) t, hlast⟩

/-! ## Reading a line -/

/-- What the reader makes of the line of a frame. -/
theorem decodeChars_frameLine (ht : t.isValid = true) :
    decodeChars (Envelope.decoder HandoffFrame.decoder) (frameLine frame t).toList =
      Decoder.inside ⟨[], 127⟩ fun q => (HandoffFrame.decoder (q.under (.field "message")) (written frame.json)).map
        fun m => Envelope.wrap m t := by
  rw [toList_frameLine, decodeChars_chars]
  exact Envelope.decoder_written (e := Envelope.wrap frame t) ht ⟨[], 127⟩

theorem readFrame_frameLine {m : HandoffFrame} (what : HandoffFrame.Tag) (rest : List (List Char))
    (ht : t.isValid = true) (hm : HandoffFrame.decoder ⟨[.field "message"], 126⟩ (written frame.json) = .ok m) :
    readFrame what ((frameLine frame t).toList :: rest) = .ok (m, rest) := by
  have hread : decodeChars (Envelope.decoder HandoffFrame.decoder) (frameLine frame t).toList =
      .ok (Envelope.wrap m t) := by
    rw [decodeChars_frameLine ht]
    exact Decoder.inside_eq_ok_iff.2 ⟨126, rfl, map_eq_ok_iff.2 ⟨m, hm, rfl⟩⟩
  simp only [readFrame, hread]
  rfl

theorem readFrame_frameLine_error (what : HandoffFrame.Tag) (rest : List (List Char)) (ht : t.isValid = true)
    (hm : ∀ m, HandoffFrame.decoder ⟨[.field "message"], 126⟩ (written frame.json) ≠ .ok m) :
    ∃ f, readFrame what ((frameLine frame t).toList :: rest) = .error (.unreadableFrame what f) := by
  cases hread : decodeChars (Envelope.decoder HandoffFrame.decoder) (frameLine frame t).toList with
  | error f => exact ⟨f, by simp only [readFrame, hread]⟩
  | ok e =>
    rw [decodeChars_frameLine ht] at hread
    obtain ⟨n, hn, hread⟩ := Decoder.inside_eq_ok_iff.1 hread
    obtain ⟨m, hmm, -⟩ := map_eq_ok_iff.1 hread
    cases hn
    exact absurd hmm (hm m)

/-! ## Reading a job -/

/-- **A job reads back** if the header leaves room for its two envelopes. -/
theorem decode_encode (hp : h.Passable) (ht : t.isValid = true) (hu : u.isValid = true) (hr : h.room < 126) :
    decode (Text.encodeUtf8 (encode h b t u)) = .ok (h, b) := by
  have hheader := readFrame_frameLine .header
    [(frameLine (.bytecode b.engine (Text.encodeBase64 b.payload)) u).toList] ht
    (HandoffFrame.decoder_header_eq_ok_iff hp |>.2 ⟨hr, rfl⟩)
  have hprogram := readFrame_frameLine .bytecode [] hu
    (HandoffFrame.decoder_bytecode b.engine (Text.encodeBase64 b.payload) (by decide))
  rw [decode, Text.decodeUtf8_encodeUtf8]
  simp only [writtenLines_encode, readFrames]
  simp only [hheader, hprogram, bind, Except.bind, Text.decodeBase64?_encodeBase64]
  rfl

/-- A job whose header is deeper is refused at its header. -/
theorem decode_encode_error (hp : h.Passable) (ht : t.isValid = true) (hr : 126 ≤ h.room) :
    ∃ f, decode (Text.encodeUtf8 (encode h b t u)) = .error (.unreadableFrame .header f) := by
  have hnone : ∀ m,
      HandoffFrame.decoder ⟨[.field "message"], 126⟩ (written (HandoffFrame.json (.header h))) ≠ .ok m := by
    intro m hm
    have hlt : h.room < 126 := (HandoffFrame.decoder_header_eq_ok_iff hp |>.1 hm).1
    omega
  obtain ⟨f, hf⟩ := readFrame_frameLine_error .header
    [(frameLine (.bytecode b.engine (Text.encodeBase64 b.payload)) u).toList] ht hnone
  refine ⟨f, ?_⟩
  rw [decode, Text.decodeUtf8_encodeUtf8]
  simp only [writtenLines_encode, readFrames]
  simp only [hf, bind, Except.bind]

end Handoff

/-! ## Requests -/

/-- What the request brings for the program is stored, and its numbers read back. -/
structure RunRequest.Passable (r : RunRequest) : Prop where
  data : Stored r.data
  extra : StoredMembers r.extra.entries
  floats : ∀ x, x ∈ r.data.floats ∨ x ∈ memberFloats r.extra.entries → ReadsBack x

theorem RunRequest.takes {r : RunRequest} (hr : r.Passable) : Takes RunRequest.decoder r.json r :=
  .record (by decide)
    (.more (.string r.script) <| .more (.optionalText r.lang) <| .more (.uint32 r.userId) <| .more (.uint32 r.roleId) <|
      .more (.textsByKey r.values) <| .more (.any ⟨hr.data, fun x hx => hr.floats x (.inl hx)⟩) <|
      .more (.boolean r.console) <| .more (.valuesByKey hr.extra fun x hx => hr.floats x (.inr hx)) .done)
    rfl

/-- The header of a run passes on what its request brought. -/
theorem Workshop.exists_header_of_prepare {w : Workshop} {c : SupervisorSettings} {request : RunRequest}
    {r : Reservation} {h : Header} {b : Bytecode} (hp : w.prepare c request r = .ok (h, b)) :
    ∃ d, h = w.header c request r d := by
  obtain ⟨d, -, hp⟩ := bind_eq_ok_iff.1 hp
  obtain ⟨text, -, hp⟩ := bind_eq_ok_iff.1 hp
  obtain ⟨program, -, hp⟩ := bind_eq_ok_iff.1 hp
  exact ⟨d, (Prod.mk.inj (Except.ok.inj hp)).1.symm⟩

theorem Json.storedMembers_of_dict {p : Place} {d : Written} {es : Dict Json}
    (h : Decoder.dict Decoder.any p d = .ok es) : StoredMembers es.entries := by
  unfold Decoder.dict at h
  split at h
  · obtain ⟨n, -, h⟩ := Decoder.inside_eq_ok_iff.1 h
    obtain ⟨ms, hms, rfl⟩ := map_eq_ok_iff.1 h
    rw [entries_any] at hms
    have hstored := storedMembers_iff.1 (storedMembers_of_anyEntries hms)
    exact storedMembers_iff.2 fun m hm => hstored m (Dict.mem_of_mem_ofList hm)
  · exact absurd (show Decoder.mismatch "a map" p (.scalar _) = .ok es from h) Decoder.mismatch_ne_ok
  · exact absurd h Decoder.mismatch_ne_ok

/-- A request from a text brings stored values only. -/
theorem RunRequest.stored_of_decodeBytes {body : Text.Bytes} {request : RunRequest}
    (h : decodeBytes RunRequest.decoder body = .ok request) :
    Stored request.data ∧ StoredMembers request.extra.entries := by
  obtain ⟨a, ha, h⟩ := bind_eq_ok_iff.1 h
  split at h
  · cases h
  · obtain rfl := Except.ok.inj h
    obtain ⟨⟨script, lang, userId, roleId, values, data, console, extra, ⟨⟩⟩, hy, rfl⟩ := Fields.exists_of_decoder ha
    obtain ⟨-, -, -, -, -, hdata, -, hextra, -⟩ := hy
    constructor
    · rcases hdata with ⟨p, d, hd⟩ | hd | hd
      · exact stored_of_any hd
      · obtain rfl := Option.some.inj hd
        trivial
      · obtain rfl := Option.some.inj hd
        trivial
    · rcases hextra with ⟨p, d, hd⟩ | hd | hd
      · exact storedMembers_of_dict hd
      · obtain rfl := Option.some.inj hd
        trivial
      · obtain rfl := Option.some.inj hd
        trivial

namespace Handoff

variable {body : Text.Bytes} {request : RunRequest} {w : Workshop} {c : SupervisorSettings} {r : Reservation}
variable {h : Header} {program : Bytecode} {t u : Instant}

/-- What the request brought from its text may be passed on. -/
theorem passable_of_prepare (hb : decodeBytes RunRequest.decoder body = .ok request)
    (hp : w.prepare c request r = .ok (h, program))
    (hf : ∀ x, x ∈ request.data.floats ∨ x ∈ memberFloats request.extra.entries → ReadsBack x) : h.Passable := by
  obtain ⟨hdata, hextra⟩ := RunRequest.stored_of_decodeBytes hb
  obtain ⟨d, rfl⟩ := Workshop.exists_header_of_prepare hp
  exact ⟨hdata, hextra, hf⟩

theorem room_lt_iff_of_prepare (hp : w.prepare c request r = .ok (h, program)) :
    h.room < 126 ↔ request.data.depth ≤ 125 ∧ ∀ e ∈ request.extra.entries, e.2.depth ≤ 124 := by
  obtain ⟨d, rfl⟩ := Workshop.exists_header_of_prepare hp
  rw [← depthMembers_le_iff]
  simp only [Header.room, Workshop.header]
  omega

/-- **A run that was accepted is handed to its process** exactly if its data nests at most 125 levels deep and every
value in its other fields at most 124: the header and whichever program come back as they are. Reading the request
leaves one level more for both. -/
theorem restores_accepted_run_iff (hb : decodeBytes RunRequest.decoder body = .ok request)
    (hp : w.prepare c request r = .ok (h, program)) (b : Bytecode)
    (hf : ∀ x, x ∈ request.data.floats ∨ x ∈ memberFloats request.extra.entries → ReadsBack x)
    (ht : t.isValid = true) (hu : u.isValid = true) :
    decode (Text.encodeUtf8 (encode h b t u)) = .ok (h, b) ↔
      request.data.depth ≤ 125 ∧ ∀ e ∈ request.extra.entries, e.2.depth ≤ 124 := by
  have hpass := passable_of_prepare hb hp hf
  rw [← room_lt_iff_of_prepare hp]
  constructor
  · intro h
    by_contra hr
    obtain ⟨f, hf⟩ := decode_encode_error (b := b) (u := u) hpass ht (Nat.not_lt.1 hr)
    rw [hf] at h
    cases h
  · exact decode_encode hpass ht hu

/-! ## Data at the limit -/

/-- One half. -/
def half : Binary64 := ⟨false, 0x10000000000000, -53⟩

/-- A number in an array in an array and so on. -/
def nested : Nat → Json
  | 0 => .float half
  | n + 1 => .array [nested n]

/-- A request with data of a given depth. -/
def deepRequest (n : Nat) : RunRequest := { Sample.request "job" with data := nested n }

theorem depth_nested (n : Nat) : (nested n).depth = n := by
  induction n with
  | zero => rfl
  | succ n ih => rw [nested, depth, depthItems, depthItems, ih, Nat.max_zero]

theorem floats_nested (n : Nat) : (nested n).floats = [half] := by
  induction n with
  | zero => rfl
  | succ n ih => rw [nested, floats, itemFloats, itemFloats, ih, List.append_nil]

theorem readsBack_half : ReadsBack half := by decide +kernel

theorem stored_nested (n : Nat) : Stored (nested n) := by
  induction n with
  | zero => trivial
  | succ n ih => exact ⟨ih, trivial⟩

theorem readsBack_deepRequest (n : Nat) :
    ∀ x, x ∈ (deepRequest n).data.floats ∨ x ∈ memberFloats (deepRequest n).extra.entries → ReadsBack x := by
  rintro x (hx | hx)
  · have hhalf : (deepRequest n).data.floats = [half] := floats_nested n
    rw [hhalf, List.mem_singleton] at hx
    exact hx ▸ readsBack_half
  · cases hx

/-- Reading a request leaves 126 levels for its data. -/
theorem decodeBytes_deepRequest {n : Nat} (h : n ≤ 126) :
    decodeBytes RunRequest.decoder (Text.encodeUtf8 (deepRequest n).json.compact) = .ok (deepRequest n) := by
  have hpassable : (deepRequest n).Passable := ⟨stored_nested n, trivial, readsBack_deepRequest n⟩
  have hdepth : (deepRequest n).json.depth ≤ 127 := by
    simp [RunRequest.json, deepRequest, Sample.request, depth, depthMembers, depth_nested, Script.optionalText,
      Script.textsByKey, Dict.empty]
    omega
  rw [decodeBytes, Text.decodeMarked_encodeUtf8]
  exact (RunRequest.takes hpassable).decodeText_compact hdepth

/-- The settings, the ports and the time of a run with such data. -/
def deepSettings : SupervisorSettings := ⟨43000, 8, false, 0, "en", 43000, none⟩

def deepReservation : Reservation := ⟨7, 43001, 43002⟩

def deepTime : Instant := ⟨2024, 5, 17, 12, 30, 0, 0⟩

def deepHeader (n : Nat) : Header := Sample.workshop.header deepSettings (deepRequest n) deepReservation Sample.job

theorem prepare_deepRequest (n : Nat) :
    Sample.workshop.prepare deepSettings (deepRequest n) deepReservation = .ok (deepHeader n, ⟨"text", []⟩) := by
  rfl

/-- Data at the limit is handed over, with a program that is no text. -/
theorem restores_data_at_limit :
    decodeBytes RunRequest.decoder (Text.encodeUtf8 (deepRequest 125).json.compact) = .ok (deepRequest 125) ∧
      Sample.workshop.prepare deepSettings (deepRequest 125) deepReservation = .ok (deepHeader 125, ⟨"text", []⟩) ∧
      decode (Text.encodeUtf8 (encode (deepHeader 125) ⟨"text", [0, 255]⟩ deepTime deepTime)) =
        .ok (deepHeader 125, ⟨"text", [0, 255]⟩) := by
  have hbody := decodeBytes_deepRequest (n := 125) (by decide)
  have hprepared := prepare_deepRequest 125
  refine ⟨hbody, hprepared, ?_⟩
  have hlimit : (deepRequest 125).data.depth ≤ 125 := Nat.le_of_eq (depth_nested 125)
  exact (restores_accepted_run_iff hbody hprepared ⟨"text", [0, 255]⟩ (readsBack_deepRequest 125) rfl rfl).2
    ⟨hlimit, nofun⟩

/-- One level deeper the request is accepted, and its process refuses the header. -/
theorem refuses_accepted_data_beyond_limit :
    decodeBytes RunRequest.decoder (Text.encodeUtf8 (deepRequest 126).json.compact) = .ok (deepRequest 126) ∧
      Sample.workshop.prepare deepSettings (deepRequest 126) deepReservation = .ok (deepHeader 126, ⟨"text", []⟩) ∧
      decode (Text.encodeUtf8 (encode (deepHeader 126) ⟨"text", []⟩ deepTime deepTime)) ≠
        .ok (deepHeader 126, ⟨"text", []⟩) := by
  have hbody := decodeBytes_deepRequest (n := 126) (by decide)
  have hprepared := prepare_deepRequest 126
  refine ⟨hbody, hprepared, fun h => ?_⟩
  have hroom : 126 ≤ (deepHeader 126).room := by
    refine Nat.le_trans (Nat.le_of_eq (depth_nested 126).symm) (Nat.le_max_left ..)
  obtain ⟨f, hf⟩ := decode_encode_error (b := ⟨"text", []⟩) (u := deepTime)
    (passable_of_prepare hbody hprepared (readsBack_deepRequest 126)) (by decide : deepTime.isValid = true) hroom
  rw [hf] at h
  cases h

end Handoff

end ScriptRunner
