import ScriptRunner.Proofs.Channel.Handoff
import ScriptRunner.Proofs.Document.Wholeness
import ScriptRunner.Proofs.Json.Locality
import ScriptRunner.Proofs.Text.Cuts

/-!
# A damaged handoff is no job

A job is read from exactly two lines, a header and a program (`Handoff.exists_lines_of_readFrames`). The decoder of frames
is thorough (`HandoffFrame.thorough_decoder`), so a line that is cut short holds no frame
(`Handoff.not_reads_cut_line`), and the tag that stands on a line decides the kind of its frame
(`Handoff.kind_of_reads`). Hence no cut, no other order and no further line makes a job.
-/

namespace ScriptRunner

open Json

/-! ## Frames -/

section Thorough

variable {σ : Type} [Format σ]

theorem Instant.thorough_decoder : (Instant.decoder : Decoder σ Instant).Thorough :=
  (Decoder.thorough_ofScalar _ _).derived _

theorem Envelope.thorough_decoder {α : Type} {message : Decoder σ α} (h : message.Thorough) :
    (Envelope.decoder message).Thorough := by
  refine Fields.thorough_decoder ?_ _ _
  exact ⟨(Decoder.thorough_integer _).map _, Instant.thorough_decoder, h, trivial⟩

namespace HandoffFrame

theorem thorough_tag : (tag : Decoder σ Tag).Thorough := by
  intro p doc t h
  obtain ⟨name, hname, -⟩ := bind_eq_ok_iff.1 h
  exact Decoder.thorough_ofScalar _ _ p doc name hname

/-- Taking the tag off looks at all other entries. -/
theorem areWholeEntries_of_splitTag {p : Place} {found : Option Tag} {es : List (Document σ × Document σ)}
    {r : Tag × List (Document σ × Document σ)} (h : splitTag p found es = .ok r) :
    Document.areWholeEntries es = true := by
  induction es generalizing found r with
  | nil => rfl
  | cons e es ih =>
    obtain ⟨k, v⟩ := e
    rw [splitTag] at h
    obtain ⟨key, hkey, h⟩ := bind_eq_ok_iff.1 h
    have hk := Decoder.thorough_string p k key hkey
    split at h
    · split at h
      · cases h
      · obtain ⟨t, ht, h⟩ := bind_eq_ok_iff.1 h
        exact areWholeEntries_cons hk (thorough_tag p v t ht) (ih h)
    · obtain ⟨w, hw, h⟩ := bind_eq_ok_iff.1 h
      obtain ⟨s, hs, -⟩ := bind_eq_ok_iff.1 h
      exact areWholeEntries_cons hk (Decoder.thorough_any p v w hw) (ih hs)

/-- **A frame is looked at in all its parts**, since the tag may stand anywhere. -/
theorem thorough_decoder : (decoder : Decoder σ HandoffFrame).Thorough := by
  intro p doc f h
  cases doc with
  | scalar s => rfl
  | sequence items =>
    cases items with
    | nil => rfl
    | cons d ds =>
      obtain ⟨t, ht, -⟩ := bind_eq_ok_iff.1 h
      obtain ⟨n, -, ht⟩ := Decoder.inside_eq_ok_iff.1 ht
      obtain ⟨t', ht', ht⟩ := bind_eq_ok_iff.1 ht
      obtain ⟨as, has, -⟩ := bind_eq_ok_iff.1 ht
      exact areWhole_cons (thorough_tag _ d t' ht') (Decoder.areWhole_of_anyItems has)
  | mapping es =>
    obtain ⟨r, hr, -⟩ := bind_eq_ok_iff.1 h
    obtain ⟨n, -, hr⟩ := Decoder.inside_eq_ok_iff.1 hr
    exact areWholeEntries_of_splitTag hr
  | damaged => cases h

end HandoffFrame

end Thorough

namespace HandoffFrame

/-- The tag under which a frame is written. -/
def kind : HandoffFrame → Tag
  | header _ => .header
  | bytecode _ _ => .bytecode

/-- A tag that has been found stays. -/
theorem tag_of_splitTag {σ : Type} [Format σ] {p : Place} {t : Tag} {es : List (Document σ × Document σ)}
    {r : Tag × List (Document σ × Document σ)} (h : splitTag p (some t) es = .ok r) : r.1 = t := by
  induction es generalizing r with
  | nil =>
    obtain rfl := Except.ok.inj h
    rfl
  | cons e es ih =>
    obtain ⟨k, v⟩ := e
    rw [splitTag] at h
    obtain ⟨key, -, h⟩ := bind_eq_ok_iff.1 h
    split at h
    · cases h
    · obtain ⟨w, -, h⟩ := bind_eq_ok_iff.1 h
      obtain ⟨⟨t', rest⟩, hs, h⟩ := bind_eq_ok_iff.1 h
      obtain rfl := Except.ok.inj h
      have htag : t' = t := ih hs
      exact htag

theorem kind_of_untagged {σ : Type} [Format σ] {p : Place} {t : Tag} {doc : Document σ} {m : HandoffFrame}
    (h : untagged t p doc = .ok m) : m.kind = t := by
  cases t with
  | header =>
    obtain ⟨h, -, rfl⟩ := map_eq_ok_iff.1 h
    rfl
  | bytecode =>
    obtain ⟨⟨engine, payload, ⟨⟩⟩, -, rfl⟩ := Fields.exists_of_decoder h
    rfl

theorem json_eq (f : HandoffFrame) : ∃ ms, f.json = .object (("type", .string f.kind.name) :: ms) := by
  cases f with
  | header h => exact ⟨h.json.members, rfl⟩
  | bytecode engine payload => exact ⟨_, rfl⟩

/-- **A frame is read as one of its own kind**, whatever it holds. -/
theorem kind_of_decoder {p : Place} {f m : HandoffFrame} (h : decoder p (written f.json) = .ok m) :
    m.kind = f.kind := by
  obtain ⟨ms, hms⟩ := f.json_eq
  rw [hms] at h
  obtain ⟨r, hr, h⟩ := bind_eq_ok_iff.1 h
  obtain ⟨n, -, hr⟩ := Decoder.inside_eq_ok_iff.1 hr
  rw [← tag_of_splitTag ((splitTag_tagged f.kind).symm.trans hr)]
  exact kind_of_untagged h

end HandoffFrame

namespace Handoff

variable {h : Header} {b : Bytecode} {t u : Instant} {f m : HandoffFrame} {line s : List Char}

/-! ## Lines -/

/-- The line holds an envelope with the frame. -/
def Reads (line : List Char) (f : HandoffFrame) : Prop :=
  ∃ e, decodeChars (Envelope.decoder HandoffFrame.decoder) line = .ok e ∧ e.message = f

theorem kind_of_reads (hr : Reads (frameLine f t).toList m) : m.kind = f.kind := by
  obtain ⟨e, he, rfl⟩ := hr
  rw [toList_frameLine, decodeChars_chars] at he
  obtain ⟨q, hq⟩ := Envelope.message_of_decoder (e := Envelope.wrap f t) he
  exact HandoffFrame.kind_of_decoder hq

/-- **A line that is cut short** holds no frame. -/
theorem not_reads_cut_line (hl : line ++ s = (frameLine f t).toList) (hs : s ≠ []) : ¬Reads line m := by
  rintro ⟨e, he, -⟩
  rw [toList_frameLine] at hl
  obtain ⟨e', he', -⟩ := bind_eq_ok_iff.1 he
  have hwhole := Envelope.thorough_decoder HandoffFrame.thorough_decoder _ _ e' he'
  rw [not_whole_of_cut_object hl hs] at hwhole
  cases hwhole

theorem exists_reads_of_readFrame {what : HandoffFrame.Tag} {ls rest : List (List Char)}
    (hr : readFrame what ls = .ok (f, rest)) : ∃ line, ls = line :: rest ∧ Reads line f := by
  unfold readFrame at hr
  split at hr
  · cases hr
  · rename_i line rest'
    split at hr
    · cases hr
    · rename_i e he
      split at hr
      · obtain ⟨rfl, rfl⟩ := Prod.mk.inj (Except.ok.inj hr)
        exact ⟨line, rfl, e, he, rfl⟩
      · cases hr

/-- **A job stands on two lines**, a header and a program. -/
theorem exists_lines_of_readFrames {ls : List (List Char)} {job : Header × Bytecode} (hj : readFrames ls = .ok job) :
    ∃ l₁ l₂ payload, ls = [l₁, l₂] ∧ Reads l₁ (.header job.1) ∧ Reads l₂ (.bytecode job.2.engine payload) := by
  simp only [readFrames, bind, Except.bind] at hj
  split at hj
  · cases hj
  · rename_i first hfirst
    obtain ⟨l₁, rfl, hl₁⟩ := exists_reads_of_readFrame hfirst
    split at hj
    · rename_i header hheader
      split at hj
      · cases hj
      · rename_i second hsecond
        obtain ⟨l₂, hrest, hl₂⟩ := exists_reads_of_readFrame hsecond
        split at hj
        · cases hj
        · rename_i engine payload hprogram
          split at hj
          · split at hj
            · rename_i hempty
              obtain rfl := Except.ok.inj hj
              rw [hheader] at hl₁
              rw [hprogram] at hl₂
              rw [List.isEmpty_iff.1 hempty] at hrest
              exact ⟨l₁, l₂, payload, by rw [hrest], hl₁, hl₂⟩
            · cases hj
          · cases hj
    · cases hj

theorem decode_eq_ok_iff {bs : Text.Bytes} {job : Header × Bytecode} :
    decode bs = .ok job ↔ ∃ s, Text.decodeUtf8 bs = .ok s ∧ readFrames (writtenLines s.toList) = .ok job := by
  unfold decode
  cases Text.decodeUtf8 bs <;> simp

/-! ## Texts of frames -/

/-- Frames with the times at which they are written, each on a line of its own. -/
def frameLines : List (HandoffFrame × Instant) → String
  | [] => ""
  | (f, t) :: fs => frameLine f t ++ "\n" ++ frameLines fs

/-- The bytes of a job. -/
def bytes (h : Header) (b : Bytecode) (t u : Instant) : Text.Bytes := Text.encodeUtf8 (encode h b t u)

/-- The text of a job without the end of its last line. -/
def unended (h : Header) (b : Bytecode) (t u : Instant) : String :=
  frameLine (.header h) t ++ "\n" ++ frameLine (.bytecode b.engine (Text.encodeBase64 b.payload)) u

theorem encode_eq_unended : encode h b t u = unended h b t u ++ "\n" := rfl

theorem writtenLines_of_unended (hl : ∀ c ∈ line, c ≠ '\n' ∧ c ≠ '\r') :
    writtenLines line = [] ∨ writtenLines line = [line] := by
  cases line with
  | nil => exact .inl rfl
  | cons c cs =>
    rw [writtenLines, Text.lines_of_feed_notMem (List.cons_ne_nil c cs) fun hc => (hl _ hc).1 rfl,
      List.filter_singleton]
    cases (c :: cs).all Text.isBlank with
    | true => exact .inl rfl
    | false => exact .inr rfl

theorem writtenLines_frameLine_append (f : HandoffFrame) (t : Instant) (r : List Char) :
    writtenLines ((frameLine f t).toList ++ '\n' :: r) = (frameLine f t).toList :: writtenLines r := by
  rw [writtenLines, Text.lines_append (not_end_of_mem_frameLine f t), List.filter_cons, not_blank_frameLine]
  rfl

theorem writtenLines_frameLines (fs : List (HandoffFrame × Instant)) :
    writtenLines (frameLines fs).toList = fs.map fun f => (frameLine f.1 f.2).toList := by
  induction fs with
  | nil => rfl
  | cons f fs ih =>
    have hlines : (frameLines (f :: fs)).toList = (frameLine f.1 f.2).toList ++ '\n' :: (frameLines fs).toList := by
      simp [frameLines, String.toList_append]
    rw [hlines, writtenLines_frameLine_append, ih, List.map_cons]

/-- The lines of a job with more text behind it. -/
theorem writtenLines_encode_append (r : List Char) :
    writtenLines ((encode h b t u).toList ++ r) = (frameLine (.header h) t).toList ::
      (frameLine (.bytecode b.engine (Text.encodeBase64 b.payload)) u).toList :: writtenLines r := by
  have hlines : (encode h b t u).toList ++ r = (frameLine (.header h) t).toList ++ '\n' ::
      ((frameLine (.bytecode b.engine (Text.encodeBase64 b.payload)) u).toList ++ '\n' :: r) := by
    simp [encode, String.toList_append]
  rw [hlines, writtenLines_frameLine_append, writtenLines_frameLine_append]

/-- The end of the last line makes no difference. -/
theorem writtenLines_unended : writtenLines (unended h b t u).toList = writtenLines (encode h b t u).toList := by
  have hline := not_end_of_mem_frameLine (.bytecode b.engine (Text.encodeBase64 b.payload)) u
  have hblank := not_blank_frameLine (.bytecode b.engine (Text.encodeBase64 b.payload)) u
  have hlast : writtenLines (frameLine (.bytecode b.engine (Text.encodeBase64 b.payload)) u).toList =
      [(frameLine (.bytecode b.engine (Text.encodeBase64 b.payload)) u).toList] := by
    rw [writtenLines, Text.lines_of_feed_notMem ?_ fun hc => (hline _ hc).1 rfl, List.filter_singleton, hblank]
    · rfl
    · intro hnil
      rw [hnil] at hblank
      cases hblank
  have hlines : (unended h b t u).toList = (frameLine (.header h) t).toList ++ '\n' ::
      (frameLine (.bytecode b.engine (Text.encodeBase64 b.payload)) u).toList := by
    simp [unended, String.toList_append]
  rw [hlines, writtenLines_frameLine_append, hlast, writtenLines_encode]

/-- **A cut leaves no two frames**: what is missing at the end is missing from the last frame, or there is one line at
most. -/
theorem readFrames_cut_ne_ok {s r : String} {job : Header × Bytecode} (hs : s ++ r = unended h b t u) (hr : r ≠ "") :
    readFrames (writtenLines s.toList) ≠ .ok job := by
  intro hj
  obtain ⟨l₁, l₂, payload, hls, -, hl₂⟩ := exists_lines_of_readFrames hj
  have htoList : s.toList ++ r.toList = (frameLine (.header h) t).toList ++ '\n' ::
      (frameLine (.bytecode b.engine (Text.encodeBase64 b.payload)) u).toList := by
    rw [← String.toList_append, hs]
    simp [unended, String.toList_append]
  have hone : ∀ a, s.toList ++ a = (frameLine (.header h) t).toList → False := by
    intro a ha
    have hunended : ∀ c ∈ s.toList, c ≠ '\n' ∧ c ≠ '\r' := fun c hc =>
      not_end_of_mem_frameLine (.header h) t c (ha ▸ List.mem_append_left a hc)
    rcases writtenLines_of_unended hunended with hnone | hone
    · cases hnone.symm.trans hls
    · cases hone.symm.trans hls
  rcases List.append_eq_append_iff.1 htoList with ⟨a, ha, -⟩ | ⟨c, hc, hrest⟩
  · exact hone a ha.symm
  · cases c with
    | nil => exact hone [] (by rw [hc, List.append_nil, List.append_nil])
    | cons d c =>
      obtain ⟨rfl, hcut⟩ := List.cons.inj hrest
      have hunended : ∀ d ∈ c, d ≠ '\n' ∧ d ≠ '\r' := by
        intro d hd
        refine not_end_of_mem_frameLine (.bytecode b.engine (Text.encodeBase64 b.payload)) u d ?_
        rw [hcut]
        exact List.mem_append_left r.toList hd
      rw [hc, writtenLines_frameLine_append] at hls
      have hsecond : writtenLines c = [l₂] := (List.cons.inj hls).2
      rcases writtenLines_of_unended hunended with hnone | hline
      · cases hnone.symm.trans hsecond
      · obtain ⟨rfl, -⟩ := List.cons.inj (hline.symm.trans hsecond)
        exact not_reads_cut_line hcut.symm (fun he => hr (String.toList_eq_nil_iff.1 he)) hl₂

/-! ## Damage -/

theorem decode_encodeUtf8 (s : String) {job : Header × Bytecode} :
    decode (Text.encodeUtf8 s) = .ok job ↔ readFrames (writtenLines s.toList) = .ok job := by
  rw [decode, Text.decodeUtf8_encodeUtf8]

/-- A job without its last byte, which ends the last line, is the same job; without more than that it is none. -/
theorem decode_take_bytes {n : Nat} {job : Header × Bytecode} (hn : n < (bytes h b t u).length) :
    decode ((bytes h b t u).take n) = .ok job ↔ n + 1 = (bytes h b t u).length ∧ decode (bytes h b t u) = .ok job := by
  have hbytes : bytes h b t u = Text.encodeUtf8 (unended h b t u) ++ [10] := by
    rw [bytes, encode_eq_unended, Text.encodeUtf8_append]
    rfl
  have hlength : (bytes h b t u).length = (Text.encodeUtf8 (unended h b t u)).length + 1 := by
    rw [hbytes, List.length_append, List.length_singleton]
  rw [hlength] at hn ⊢
  rw [Nat.add_right_cancel_iff]
  have htake : (bytes h b t u).take n = (Text.encodeUtf8 (unended h b t u)).take n := by
    rw [hbytes, List.take_append_of_le_length (Nat.le_of_lt_succ hn)]
  rw [htake]
  constructor
  · intro hd
    have hlast : n = (Text.encodeUtf8 (unended h b t u)).length := by
      refine Nat.le_antisymm (Nat.le_of_lt_succ hn) (Nat.le_of_not_lt fun hlt => ?_)
      obtain ⟨s, hs, hj⟩ := decode_eq_ok_iff.1 hd
      obtain ⟨r, hr, hsr⟩ := Text.exists_rest_of_decodeUtf8 hs (List.take_append_drop n _)
        (List.ne_nil_of_length_pos (by rw [List.length_drop]; omega))
      exact readFrames_cut_ne_ok hsr hr hj
    refine ⟨hlast, ?_⟩
    rw [hlast, List.take_length, decode_encodeUtf8, writtenLines_unended] at hd
    rw [bytes, decode_encodeUtf8]
    exact hd
  · rintro ⟨hlast, hd⟩
    rw [bytes, decode_encodeUtf8] at hd
    rw [hlast, List.take_length, decode_encodeUtf8, writtenLines_unended]
    exact hd

/-- Frames are a job only as a header and a program, in this order. -/
theorem eq_header_program_of_decode {fs : List (HandoffFrame × Instant)} {job : Header × Bytecode}
    (hd : decode (Text.encodeUtf8 (frameLines fs)) = .ok job) :
    ∃ h t engine payload u, fs = [(.header h, t), (.bytecode engine payload, u)] := by
  rw [decode_encodeUtf8, writtenLines_frameLines] at hd
  obtain ⟨l₁, l₂, payload, hls, hl₁, hl₂⟩ := exists_lines_of_readFrames hd
  obtain ⟨⟨f, t⟩, gs, rfl, rfl, hgs⟩ := List.map_eq_cons_iff.1 hls
  obtain ⟨⟨g, u⟩, ks, rfl, rfl, hks⟩ := List.map_eq_cons_iff.1 hgs
  obtain rfl := List.map_eq_nil_iff.1 hks
  have hf := kind_of_reads hl₁
  have hg := kind_of_reads hl₂
  cases f with
  | bytecode engine payload => cases hf
  | header h =>
    cases g with
    | header h' => cases hg
    | bytecode engine payload => exact ⟨h, t, engine, payload, u, rfl⟩

/-- What stands behind a job has to be a text of blank lines. -/
theorem decode_bytes_append {bs : Text.Bytes} {job : Header × Bytecode} :
    decode (bytes h b t u ++ bs) = .ok job ↔
      (∃ s, Text.decodeUtf8 bs = .ok s ∧ writtenLines s.toList = []) ∧ decode (bytes h b t u) = .ok job := by
  have hread := Text.decodeUtf8_encodeUtf8 (encode h b t u)
  have hjob : writtenLines (encode h b t u).toList = _ := writtenLines_encode h b t u
  rw [bytes, decode_encodeUtf8, decode_eq_ok_iff, hjob]
  constructor
  · rintro ⟨s, hs, hj⟩
    obtain ⟨r, hr, rfl⟩ := (Text.decodeUtf8_append hread).1 hs
    rw [String.toList_append, writtenLines_encode_append] at hj
    obtain ⟨l₁, l₂, payload, hls, -⟩ := exists_lines_of_readFrames hj
    have hblank : writtenLines r.toList = [] := (List.cons.inj (List.cons.inj hls).2).2
    exact ⟨⟨r, hr, hblank⟩, by rw [hblank] at hj; exact hj⟩
  · rintro ⟨⟨r, hr, hblank⟩, hj⟩
    refine ⟨_, (Text.decodeUtf8_append hread).2 ⟨r, hr, rfl⟩, ?_⟩
    rw [String.toList_append, writtenLines_encode_append, hblank]
    exact hj

/-- **A damaged handoff is never taken for a job**, whatever its frames hold. Cut at any byte it is refused, unless it
lacks nothing but the end of the last line, and then it is the job itself. Frames in a row, of whichever jobs, are
refused unless they are one header with one program behind it. Bytes behind a job are refused unless they are blank
lines. -/
theorem damaged_job_is_refused (h : Header) (b : Bytecode) (t u : Instant) :
    (∀ n < (bytes h b t u).length, ∀ job, decode ((bytes h b t u).take n) = .ok job ↔
      n + 1 = (bytes h b t u).length ∧ decode (bytes h b t u) = .ok job) ∧
    (∀ fs job, decode (Text.encodeUtf8 (frameLines fs)) = .ok job →
      ∃ h t engine payload u, fs = [(.header h, t), (.bytecode engine payload, u)]) ∧
    ∀ bs job, decode (bytes h b t u ++ bs) = .ok job ↔
      (∃ s, Text.decodeUtf8 bs = .ok s ∧ writtenLines s.toList = []) ∧ decode (bytes h b t u) = .ok job :=
  ⟨fun _ hn _ => decode_take_bytes hn, fun _ _ => eq_header_program_of_decode, fun _ _ => decode_bytes_append⟩

/-- A job with a program that is no text, cut by one byte and by more. -/
theorem cut_job_with_payload :
    decode ((bytes (deepHeader 1) ⟨"text", [0, 255]⟩ deepTime deepTime).take
        ((bytes (deepHeader 1) ⟨"text", [0, 255]⟩ deepTime deepTime).length - 1)) =
      .ok (deepHeader 1, ⟨"text", [0, 255]⟩) ∧
    ∀ n, n + 1 < (bytes (deepHeader 1) ⟨"text", [0, 255]⟩ deepTime deepTime).length → ∀ job,
      decode ((bytes (deepHeader 1) ⟨"text", [0, 255]⟩ deepTime deepTime).take n) ≠ .ok job := by
  have hpass : (deepHeader 1).Passable := ⟨stored_nested 1, trivial, readsBack_deepRequest 1⟩
  have hjob : decode (bytes (deepHeader 1) ⟨"text", [0, 255]⟩ deepTime deepTime) =
      .ok (deepHeader 1, ⟨"text", [0, 255]⟩) := decode_encode hpass (by decide) (by decide) (by decide)
  have hpos : 0 < (bytes (deepHeader 1) ⟨"text", [0, 255]⟩ deepTime deepTime).length := by
    rw [bytes, encode_eq_unended, Text.encodeUtf8_append, List.length_append]
    exact Nat.add_pos_right _ (by decide)
  have hcuts := (damaged_job_is_refused (deepHeader 1) ⟨"text", [0, 255]⟩ deepTime deepTime).1
  constructor
  · exact (hcuts _ (Nat.sub_lt hpos Nat.one_pos) _).2 ⟨Nat.sub_add_cancel hpos, hjob⟩
  · intro n hn job hd
    have hlast := ((hcuts n (Nat.lt_of_succ_lt hn) job).1 hd).1
    omega

end Handoff

end ScriptRunner
