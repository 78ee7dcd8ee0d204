import ScriptRunner.Channel.Envelope
import ScriptRunner.Channel.Frame
import ScriptRunner.Proofs.Json.Laws
import ScriptRunner.Proofs.Text.Timestamps

/-!
# Headers, frames and envelopes read back

A header reads back if there is room for what it passes on (`Header.takes`). A frame is
looked at twice, first for its tag and then for its fields, and both times as deep as it is, so it reads back exactly if
there is room for all of it (`HandoffFrame.decoder_header_eq_ok_iff`). An envelope hands its message to the decoder of the
message with one level less (`Envelope.decoder_written`).
-/

namespace ScriptRunner

open Json

/-! ## Headers -/

namespace Header

/-- What the header passes on is stored, and its numbers read back. -/
structure Passable (h : Header) : Prop where
  data : Stored h.data
  extra : StoredMembers h.extra.entries
  floats : ∀ x, x ∈ h.data.floats ∨ x ∈ memberFloats h.extra.entries → ReadsBack x

/-- How deep the members of the header are. -/
def room (h : Header) : Nat := max h.data.depth (depthMembers h.extra.entries + 1)

variable {h : Header} {p : Place}

theorem depth_optionalText (o : Option String) : (Script.optionalText o).depth = 0 := by
  cases o <;> rfl

theorem floats_optionalText (o : Option String) : (Script.optionalText o).floats = [] := by
  cases o <;> rfl

theorem stored_optionalText (o : Option String) : Stored (Script.optionalText o) := by
  cases o <;> trivial

theorem depthMembers_json (h : Header) : depthMembers h.json.members = h.room := by
  simp [json, members, depthMembers, depth, depth_optionalText, room]

theorem memberFloats_json (h : Header) :
    memberFloats h.json.members = h.data.floats ++ memberFloats h.extra.entries := by
  simp [json, members, memberFloats, floats, floats_optionalText]

theorem fits_toNat {n : Nat} (h : n < 18446744073709551616) : Fits n := ⟨by omega, by omega⟩

theorem storedMembers_json (hp : h.Passable) : StoredMembers h.json.members := by
  have h16 : ∀ n : UInt16, Fits n.toNat := fun n => fits_toNat (Nat.lt_trans n.toNat_lt (by decide))
  have h32 : ∀ n : UInt32, Fits n.toNat := fun n => fits_toNat (Nat.lt_trans n.toNat_lt (by decide))
  have h64 : ∀ n : UInt64, Fits n.toNat := fun n => fits_toNat n.toNat_lt
  simp only [json, members, StoredMembers, Stored, h16, h32, h64, stored_optionalText, hp.data, hp.extra,
    h.extra.ordered, and_self]

/-- **A header reads back.** -/
theorem takes (hp : h.Passable) : Takes Header.decoder h.json h :=
  .record (by decide)
    (.more (.uint32 h.taskId) <| .more (.string h.name) <| .more (.string h.title) <| .more (.string h.lang) <|
      .more (.uint32 h.userId) <| .more (.uint32 h.roleId) <| .more (.uint16 h.httpPort) <|
      .more (.uint16 h.localPort) <| .more (.uint16 h.serverPort) <| .more (.boolean h.console) <|
      .more (.optionalText h.logLevel) <| .more (.boolean h.restricted) <| .more (.usize h.maxTasks) <|
      .more (.any ⟨hp.data, fun x hx => hp.floats x (.inl hx)⟩) <|
      .more (.valuesByKey hp.extra fun x hx => hp.floats x (.inr hx)) .done)
    rfl

/-- The same from its members. -/
theorem decoder_written (hp : h.Passable) (hr : h.room < p.room) :
    Header.decoder p (.mapping (writtenMembers h.json.members)) = .ok h := by
  rw [← depthMembers_json] at hr
  exact takes hp p hr

end Header

/-! ## Envelopes -/

theorem Instant.decoder_written {t : Instant} (h : t.isValid = true) (p : Place) :
    Instant.decoder p (written (.string t.text)) = .ok t := by
  have hstring : (Format.string (Scalar.string (some t.text.toList)) : Except Cause String) = .ok t.text :=
    bind_eq_ok_iff.2 ⟨_, atom_string t.text, rfl⟩
  have htext : decoder.timestampText (Scalar.string (some t.text.toList)) = .ok t.text := by
    rw [decoder.timestampText, hstring]
  have hscalar : Decoder.ofScalar "an RFC 3339 formatted date and time string" decoder.timestampText p
      (written (.string t.text)) = .ok t.text := by
    show Decoder.atPlace p (decoder.timestampText (Scalar.string (some t.text.toList))) = _
    rw [htext]
    rfl
  refine bind_eq_ok_iff.2 ⟨t.text, hscalar, ?_⟩
  simp only [parse?_text h]

section Envelopes

variable {α β : Type} {message : Decoder Scalar α} {json : β → Json} {e : Envelope β}

/-- An envelope is decoded member after member, and its version always reads back. -/
theorem Envelope.decoder_json (message : Decoder Scalar α) (json : β → Json) (e : Envelope β) (p : Place) :
    Envelope.decoder message p (written (e.json json)) =
      Decoder.inside p fun q =>
        Instant.decoder (q.under (.field "timestamp")) (written (.string e.timestamp.text)) >>= fun t =>
          (message (q.under (.field "message")) (written (json e.message))).map fun m => ⟨e.version, t, m⟩ := by
  have hdocument : written (e.json json) = .mapping (writtenMembers (e.json json).members) := rfl
  unfold Envelope.decoder
  rw [hdocument, Json.decoder_written (by simp [Fields.names, Field.required]) rfl]
  refine congrArg (Decoder.inside p) (funext fun q => ?_)
  simp only [Envelope.json, members, Fields.inOrder, Field.required, List.map_cons, List.headD_cons, List.tail_cons,
    uint32_written]
  cases Instant.decoder (q.under (.field "timestamp")) (written (.string e.timestamp.text)) with
  | error f => rfl
  | ok t => cases message (q.under (.field "message")) (written (json e.message)) <;> rfl

theorem Envelope.decoder_written {json : α → Json} {e : Envelope α} (ht : e.timestamp.isValid = true) (p : Place) :
    Envelope.decoder message p (written (e.json json)) =
      Decoder.inside p fun q => (message (q.under (.field "message")) (written (json e.message))).map
        fun m => { e with message := m } := by
  rw [Envelope.decoder_json]
  simp only [Instant.decoder_written ht]
  rfl

/-- The message of an envelope is decoded from the document of the message that was written. -/
theorem Envelope.message_of_decoder {d : Envelope α} {p : Place}
    (h : Envelope.decoder message p (written (e.json json)) = .ok d) :
    ∃ q, message q (written (json e.message)) = .ok d.message := by
  rw [Envelope.decoder_json] at h
  obtain ⟨n, -, h⟩ := Decoder.inside_eq_ok_iff.1 h
  obtain ⟨t, -, h⟩ := bind_eq_ok_iff.1 h
  obtain ⟨m, hm, rfl⟩ := map_eq_ok_iff.1 h
  exact ⟨_, hm⟩

end Envelopes

/-! ## Frames -/

namespace HandoffFrame

variable {p : Place} {t : Tag} {ms : List (String × Json)}

theorem tag_written (t : Tag) (p : Place) : tag p (written (.string t.name)) = .ok t := by
  cases t <;> rfl

/-- The members behind the tag are read as values of any type. -/
theorem splitTag_written (hk : ∀ m ∈ ms, m.1 ≠ "type") (hs : StoredMembers ms) (hf : ∀ x ∈ memberFloats ms, ReadsBack x)
    (hd : depthMembers ms ≤ p.room) : splitTag p (some t) (writtenMembers ms) = .ok (t, writtenMembers ms) := by
  induction ms with
  | nil => rfl
  | cons m ms ih =>
    obtain ⟨k, a⟩ := m
    have hfa := fun x hx => hf x (List.mem_append_left _ hx)
    have hfms := fun x hx => hf x (List.mem_append_right _ hx)
    have ha := any_written hs.1 hfa (Nat.le_trans (Nat.le_max_left ..) hd)
    have hms := ih (fun m hm => hk m (List.mem_cons_of_mem _ hm)) hs.2 hfms (Nat.le_trans (Nat.le_max_right ..) hd)
    refine bind_eq_ok_iff.2 ⟨k, string_written p k, ?_⟩
    rw [if_neg (hk (k, a) List.mem_cons_self)]
    exact bind_eq_ok_iff.2 ⟨a, ha, bind_eq_ok_iff.2 ⟨_, hms, rfl⟩⟩

theorem depth_le_of_splitTag {r : Tag × List (Written × Written)} (hk : ∀ m ∈ ms, m.1 ≠ "type")
    (h : splitTag p (some t) (writtenMembers ms) = .ok r) : depthMembers ms ≤ p.room := by
  induction ms generalizing r with
  | nil => exact Nat.zero_le _
  | cons m ms ih =>
    obtain ⟨k, a⟩ := m
    obtain ⟨key, hkey, h⟩ := bind_eq_ok_iff.1 h
    obtain rfl := Except.ok.inj ((string_written p k).symm.trans hkey)
    rw [if_neg (hk (k, a) List.mem_cons_self)] at h
    obtain ⟨w, hw, h⟩ := bind_eq_ok_iff.1 h
    obtain ⟨s, hs, -⟩ := bind_eq_ok_iff.1 h
    exact Nat.max_le.2 ⟨depth_le_of_any hw, ih (fun m hm => hk m (List.mem_cons_of_mem _ hm)) hs⟩

theorem splitTag_tagged (t : Tag) : splitTag p none (writtenMembers (("type", .string t.name) :: ms)) =
    splitTag p (some t) (writtenMembers ms) := by
  rw [writtenMembers, splitTag, string_written]
  show (tag p (written (.string t.name)) >>= fun t => splitTag p (some t) (writtenMembers ms)) = _
  rw [tag_written]
  rfl

/-- A frame is looked at twice: there has to be room for the fields behind the tag before they are decoded. -/
theorem decoder_tagged_eq_ok_iff (t : Tag) (ms : List (String × Json)) {f : HandoffFrame}
    (hk : ∀ m ∈ ms, m.1 ≠ "type") (hs : StoredMembers ms) (hf : ∀ x ∈ memberFloats ms, ReadsBack x) :
    decoder p (written (.object (("type", .string t.name) :: ms))) = .ok f ↔
      depthMembers ms < p.room ∧ untagged t p (.mapping (writtenMembers ms)) = .ok f := by
  constructor
  · intro h
    obtain ⟨r, hr, h⟩ := bind_eq_ok_iff.1 h
    obtain ⟨n, hn, hr⟩ := Decoder.inside_eq_ok_iff.1 hr
    have hsplit := (splitTag_tagged t).symm.trans hr
    have hle : depthMembers ms ≤ n := depth_le_of_splitTag hk hsplit
    obtain rfl := Except.ok.inj ((splitTag_written hk hs hf hle).symm.trans hsplit)
    exact ⟨by omega, h⟩
  · rintro ⟨hlt, h⟩
    obtain ⟨n, hn⟩ : ∃ n, p.room = n + 1 := ⟨p.room - 1, by omega⟩
    have hsplit := splitTag_written (p := ⟨p.path, n⟩) (t := t) hk hs hf (by show _ ≤ n; omega)
    exact bind_eq_ok_iff.2 ⟨_, Decoder.inside_eq_ok_iff.2 ⟨n, hn, (splitTag_tagged t).trans hsplit⟩, h⟩

/-- **The frame of a header reads back** exactly if there is room for what the header passes on. -/
theorem decoder_header_eq_ok_iff {h : Header} {f : HandoffFrame} (hp : h.Passable) :
    decoder p (written (json (.header h))) = .ok f ↔ h.room < p.room ∧ f = .header h := by
  have hk : ∀ m ∈ h.json.members, m.1 ≠ "type" := by
    intro m hm he
    have hmem : m.1 ∈ h.json.members.map Prod.fst := List.mem_map_of_mem hm
    rw [he] at hmem
    revert hmem
    show "type" ∈ ["task_id", "name", "title", "lang", "user_id", "role_id", "http_port", "local_port", "server_port",
      "console", "log_level", "restricted", "max_tasks", "data", "extra"] → False
    decide
  have hfloats : ∀ x ∈ memberFloats h.json.members, ReadsBack x := by
    rw [Header.memberFloats_json]
    exact fun x hx => hp.floats x (List.mem_append.1 hx)
  have htagged := decoder_tagged_eq_ok_iff (p := p) .header h.json.members (f := f) hk (Header.storedMembers_json hp)
    hfloats
  rw [Header.depthMembers_json] at htagged
  refine htagged.trans (and_congr_right fun hr => ?_)
  show (Header.decoder p (.mapping (writtenMembers h.json.members))).map HandoffFrame.header = .ok f ↔ _
  rw [Header.decoder_written hp hr]
  exact ⟨fun h => (Except.ok.inj h).symm, fun h => h ▸ rfl⟩

/-- The frame of a program reads back. -/
theorem decoder_bytecode (engine payload : String) (hr : 0 < p.room) :
    decoder p (written (json (.bytecode engine payload))) = .ok (.bytecode engine payload) := by
  have hfields : Takes bytecodeDecoder (.object [("engine", .string engine), ("payload", .string payload)])
      (.bytecode engine payload) := .record (by decide) (.more (.string engine) <| .more (.string payload) .done) rfl
  exact (decoder_tagged_eq_ok_iff .bytecode [("engine", .string engine), ("payload", .string payload)] (by simp)
    ⟨trivial, trivial, trivial⟩ nofun).2 ⟨hr, hfields p hr⟩

end HandoffFrame

end ScriptRunner
