import ScriptRunner.Proofs.Channel.WireFormats
import ScriptRunner.Proofs.Files
import ScriptRunner.Proofs.Json.Joined
import ScriptRunner.Proofs.Text.Cuts
import ScriptRunner.Proofs.Text.Lines
import ScriptRunner.Supervisor.Traces

/-!
# Records that are read back from a file

A record is written behind whatever the file holds (`TraceFile.recordAll_spec`). If the file ends with a line feed, or
with gaps behind its last one, the record gets a line of its own, and the records of the file are those that were there
and the new ones (`TraceFile.readLines_append_records`). Otherwise the first new record goes on in the last line, which
then holds no record, and the file is not read at all (`TraceFile.readLines_append_records_ne_ok`).
-/

namespace ScriptRunner

open Json (chars isGap decodeChars)
open Text (Bytes)

/-- What came of keeping some records, one after the other. -/
def TraceStore.outcomes {τ : Type} (store : TraceStore τ) : τ → List Task → List (Except StorageError Unit)
  | _, [] => []
  | traces, t :: ts => (store.record t traces).1 :: store.outcomes (store.record t traces).2 ts

theorem TaskStatus.thorough_decoder {σ : Type} [Format σ] : (TaskStatus.decoder : Decoder σ TaskStatus).Thorough :=
  (Decoder.thorough_integer _).derived _

theorem Task.thorough_decoder {σ : Type} [Format σ] : (Task.decoder : Decoder σ Task).Thorough := by
  refine Fields.thorough_decoder ?_ _ _
  have hint : ∀ range, (Decoder.integer range : Decoder σ Int).Thorough := Decoder.thorough_integer
  exact ⟨(hint _).map _, TaskStatus.thorough_decoder, Decoder.thorough_string, Decoder.thorough_string, (hint _).map _,
    (hint _).map _, (hint _).map _, (hint _).map _, (hint _).map _, (hint _).map _, Decoder.thorough_string, trivial⟩

namespace TraceFile

variable {path : String} {files : FileTree} {content : Bytes} {text : String}
variable {cs ds l : List Char} {olds ts us : List Task} {t : Task}

/-! ## Lines -/

/-- The characters of the lines of records. -/
def recordChars (ts : List Task) : List Char := ts.flatMap fun t => chars t.json ++ ['\n']

theorem recordChars_cons (t : Task) (ts : List Task) :
    recordChars (t :: ts) = chars t.json ++ '\n' :: recordChars ts := by
  simp [recordChars]

theorem not_end_of_mem_chars (t : Task) (c : Char) (hc : c ∈ chars t.json) : c ≠ '\n' ∧ c ≠ '\r' := by
  have hplain := Json.plain_chars _ c hc
  constructor <;> rintro rfl <;> exact absurd hplain (by decide)

/-- A record is read from its text. -/
theorem decodeChars_json (t : Task) : decodeChars Task.decoder (chars t.json) = .ok t := by
  have hdepth : t.json.depth = 1 := rfl
  rw [Json.decodeChars_chars]
  exact t.takes ⟨[], 127⟩ (by rw [hdepth]; decide)

/-- The lines behind a line feed are read on their own. -/
theorem readLines_closedLines_append :
    readLines (Text.closedLines cs ++ ds) = .ok us ↔
      ∃ as bs, readLines (Text.closedLines cs) = .ok as ∧ readLines ds = .ok bs ∧ as ++ bs = us := by
  rw [readLines, Text.lines_closedLines_append, List.filter_append, mapM_append_eq_ok_iff]
  rfl

/-- A line that is ended and not blank is a record in front of the others. -/
theorem readLines_line_append (hfeed : '\n' ∉ l) (hreturn : l.getLast? ≠ some '\r') (hl : l.all Text.isBlank = false) :
    readLines (l ++ '\n' :: ds) = .ok us ↔
      ∃ t ts, decodeChars Task.decoder l = .ok t ∧ readLines ds = .ok ts ∧ t :: ts = us := by
  rw [readLines, Text.lines_ended_by_feed hfeed hreturn, List.filter_cons_of_pos (by rw [hl]; rfl),
    mapM_cons_eq_ok_iff]
  rfl

/-- What is read from a single line that nothing ends. -/
theorem readLines_unended (hfeed : '\n' ∉ l) :
    readLines l = if l.all Text.isBlank then .ok [] else (decodeChars Task.decoder l).map fun t => [t] := by
  cases l with
  | nil => rfl
  | cons c l =>
    rw [readLines, Text.lines_of_feed_notMem (List.cons_ne_nil c l) hfeed, List.filter_singleton]
    cases (c :: l).all Text.isBlank with
    | true => rfl
    | false =>
      show [c :: l].mapM (decodeChars Task.decoder) = _
      rw [List.mapM_cons, List.mapM_nil]
      cases decodeChars Task.decoder (c :: l) <;> rfl

/-! ## The first new record -/

/-- A record that is written goes on in the line that was open; what follows stands on lines of its own. -/
theorem readLines_open_append (hfeed : '\n' ∉ l) :
    readLines (l ++ (chars t.json ++ '\n' :: ds)) = .ok us ↔
      ∃ u vs, decodeChars Task.decoder (l ++ chars t.json) = .ok u ∧ readLines ds = .ok vs ∧ u :: vs = us := by
  obtain ⟨c, r, hc⟩ : ∃ c r, chars t.json = c :: r ∧ Text.isBlank c = false := ⟨_, _, rfl, rfl⟩
  rw [← List.append_assoc, readLines_line_append]
  · intro hmem
    rcases List.mem_append.1 hmem with hmem | hmem
    · exact hfeed hmem
    · exact (not_end_of_mem_chars t _ hmem).1 rfl
  · intro hlast
    rw [List.getLast?_append_of_ne_nil _ (by rw [hc.1]; exact List.cons_ne_nil c r)] at hlast
    exact (not_end_of_mem_chars t _ (List.mem_of_getLast? hlast)).2 rfl
  · rw [List.all_append, hc.1, List.all_cons, hc.2, Bool.false_and, Bool.and_false]

theorem readLines_record_append (t : Task) (h : readLines ds = .ok ts) :
    readLines (chars t.json ++ '\n' :: ds) = .ok (t :: ts) :=
  (readLines_open_append List.not_mem_nil).2 ⟨t, ts, decodeChars_json t, h, rfl⟩

theorem readLines_recordChars (ts : List Task) : readLines (recordChars ts) = .ok ts := by
  induction ts with
  | nil => rfl
  | cons t ts ih => rw [recordChars_cons, readLines_record_append t ih]

/-- **Behind a line feed or gaps** new records are read as they were written. -/
theorem readLines_append_records (hgaps : ∀ c ∈ Text.openLine cs, isGap c = true) (h : readLines cs = .ok olds)
    (t : Task) (ts : List Task) : readLines (cs ++ recordChars (t :: ts)) = .ok (olds ++ t :: ts) := by
  have hcs := Text.closedLines_append_openLine cs
  have hfeed := Text.feed_notMem_openLine cs
  rw [← hcs] at h
  obtain ⟨as, bs, has, hbs, rfl⟩ := readLines_closedLines_append.1 h
  have hnone : bs = [] := by
    rw [readLines_unended hfeed, if_pos (List.all_eq_true.2 fun c hc => Json.isBlank_of_isGap (hgaps c hc))] at hbs
    exact (Except.ok.inj hbs).symm
  have hfirst : decodeChars Task.decoder (Text.openLine cs ++ chars t.json) = .ok t :=
    (Json.decodeChars_gaps_append hgaps _ _).trans (decodeChars_json t)
  rw [← hcs, List.append_assoc, recordChars_cons, readLines_closedLines_append]
  refine ⟨as, t :: ts, has, (readLines_open_append hfeed).2 ⟨t, ts, hfirst, readLines_recordChars ts, rfl⟩, ?_⟩
  rw [hnone, List.append_nil]

/-- **Behind anything else** the first new record belongs to a line that holds no record. -/
theorem readLines_append_records_ne_ok (hgaps : ¬∀ c ∈ Text.openLine cs, isGap c = true) (h : readLines cs = .ok olds)
    (t : Task) (ts us : List Task) : readLines (cs ++ recordChars (t :: ts)) ≠ .ok us := by
  have hcs := Text.closedLines_append_openLine cs
  have hfeed := Text.feed_notMem_openLine cs
  rw [← hcs] at h
  obtain ⟨as, bs, -, hbs, -⟩ := readLines_closedLines_append.1 h
  intro hus
  rw [← hcs, List.append_assoc, recordChars_cons, readLines_closedLines_append] at hus
  obtain ⟨_, _, -, hrest, -⟩ := hus
  obtain ⟨u, _, hu, -, -⟩ := (readLines_open_append hfeed).1 hrest
  rw [readLines_unended hfeed] at hbs
  split at hbs
  · rename_i hblank
    have hdamaged : ∀ p a, Task.decoder p (Document.damaged : Json.Written) ≠ .ok a := fun p a hd => by
      cases Task.thorough_decoder p _ a hd
    exact Json.decodeChars_append_ne_ok_of_blank hdamaged (List.all_eq_true.1 hblank) hgaps _ hu
  · obtain ⟨v, hv, -⟩ := map_eq_ok_iff.1 hbs
    have hscalar : ∀ p s a, Task.decoder p (Document.scalar s : Json.Written) ≠ .ok a := fun _ _ _ =>
      Json.decoder_scalar_ne_ok
    exact Json.decodeChars_append_ne_ok Task.thorough_decoder hscalar hv _ hu

/-! ## The file -/

/-- The bytes of a file; a file that is not there has none. -/
def Holds (files : FileTree) (path : String) (content : Bytes) : Prop :=
  files.contentAt path = .ok content ∨ files.contentAt path = .error .notFound ∧ content = []

/-- The text of a file; a file that is not there has an empty one. -/
def textAt (files : FileTree) (path : String) : String :=
  (readText (files.contentAt path)).toOption.getD ""

/-- Nothing but gaps stands behind the last line feed of a file. -/
def EndsItsLines (files : FileTree) (path : String) : Prop :=
  ∀ c ∈ Text.openLine (textAt files path).toList, isGap c = true

/-- Records are kept: their lines stand behind what the file holds. -/
theorem recordAll_spec (hpath : FileTree.NamesFile path) (h : Holds files path content) (ts : List Task) :
    (store path).outcomes files ts = ts.map (fun _ => .ok ()) ∧
      Holds ((store path).recordAll files ts) path (content ++ ts.flatMap line) := by
  induction ts generalizing files content with
  | nil => exact ⟨rfl, by simpa [TraceStore.recordAll] using h⟩
  | cons t ts ih =>
    obtain ⟨files', happend, hcontent⟩ := hpath.append_eq_ok (line t) h
    have hrecord : (store path).record t files = (.ok (), files') := by simp only [store, happend]
    obtain ⟨houtcomes, hholds⟩ := ih (.inl hcontent)
    rw [TraceStore.outcomes, TraceStore.recordAll, List.foldl_cons, hrecord, houtcomes, List.flatMap_cons,
      ← List.append_assoc]
    exact ⟨rfl, hholds⟩

theorem load_of_holds (h : Holds files path content) (htext : Text.decodeUtf8 content = .ok text) :
    textAt files path = text ∧
      load (files.contentAt path) = (readLines text.toList).mapError fun f => .serialization f.message := by
  unfold textAt load readText
  rcases h with hcontent | ⟨hnone, rfl⟩
  · rw [hcontent]
    simp only [bind, Except.bind, htext]
    exact ⟨rfl, trivial⟩
  · obtain rfl : "" = text := Except.ok.inj htext
    rw [hnone]
    exact ⟨rfl, rfl⟩

/-- A file that is loaded holds a text of records. -/
theorem exists_of_load (h : load (files.contentAt path) = .ok olds) :
    ∃ content text, Holds files path content ∧ Text.decodeUtf8 content = .ok text ∧
      readLines text.toList = .ok olds := by
  cases hcontent : files.contentAt path with
  | error fault =>
    rw [hcontent] at h
    cases fault <;> cases h
    exact ⟨[], "", .inr ⟨hcontent, rfl⟩, rfl, rfl⟩
  | ok content =>
    cases htext : Text.decodeUtf8 content with
    | error fault =>
      rw [hcontent] at h
      simp only [load, readText, bind, Except.bind, htext] at h
      cases h
    | ok text =>
      have hholds : Holds files path content := .inl hcontent
      rw [(load_of_holds hholds htext).2, mapError_eq_ok_iff] at h
      exact ⟨content, text, hholds, htext, h⟩

theorem flatMap_line (ts : List Task) : ts.flatMap line = Text.encodeUtf8 (String.ofList (recordChars ts)) := by
  induction ts with
  | nil => rfl
  | cons t ts ih =>
    have hline : line t = Text.encodeUtf8 (String.ofList (chars t.json ++ ['\n'])) := by
      rw [line, String.ofList_append]
      rfl
    have hchars : recordChars (t :: ts) = (chars t.json ++ ['\n']) ++ recordChars ts := List.flatMap_cons
    rw [List.flatMap_cons, ih, hline, hchars, ← Text.encodeUtf8_append, ← String.ofList_append]

/-- Records behind a text make a text. -/
theorem decodeUtf8_append_lines (htext : Text.decodeUtf8 content = .ok text) (ts : List Task) :
    Text.decodeUtf8 (content ++ ts.flatMap line) = .ok (text ++ String.ofList (recordChars ts)) := by
  rw [flatMap_line]
  exact (Text.decodeUtf8_append htext).2 ⟨_, Text.decodeUtf8_encodeUtf8 _, rfl⟩

/-- What is read from a file to which records have been added is read from its old text with their lines behind it. -/
theorem load_recordAll (hpath : FileTree.NamesFile path) (hload : load (files.contentAt path) = .ok olds)
    (ts : List Task) :
    readLines (textAt files path).toList = .ok olds ∧
      load (((store path).recordAll files ts).contentAt path) =
        (readLines ((textAt files path).toList ++ recordChars ts)).mapError fun f => .serialization f.message := by
  obtain ⟨content, text, hholds, htext, hread⟩ := exists_of_load hload
  obtain ⟨-, hholds'⟩ := recordAll_spec hpath hholds ts
  rw [(load_of_holds hholds' (decodeUtf8_append_lines htext ts)).2, (load_of_holds hholds htext).1,
    String.toList_append, String.toList_ofList]
  exact ⟨hread, rfl⟩

theorem load_recordAll_of_ends (hpath : FileTree.NamesFile path) (hload : load (files.contentAt path) = .ok olds)
    (h : ts = [] ∨ EndsItsLines files path) :
    load (((store path).recordAll files ts).contentAt path) = .ok (olds ++ ts) := by
  obtain ⟨hread, hload'⟩ := load_recordAll hpath hload ts
  rw [hload', mapError_eq_ok_iff]
  cases ts with
  | nil => simpa [recordChars] using hread
  | cons t ts => exact readLines_append_records (h.resolve_left (List.cons_ne_nil t ts)) hread t ts

theorem load_recordAll_of_not_ends (hpath : FileTree.NamesFile path) (hload : load (files.contentAt path) = .ok olds)
    (hts : ts ≠ []) (hends : ¬EndsItsLines files path) :
    ∃ detail, load (((store path).recordAll files ts).contentAt path) = .error (.serialization detail) := by
  obtain ⟨t, ts, rfl⟩ := List.exists_cons_of_ne_nil hts
  obtain ⟨hread, hload'⟩ := load_recordAll hpath hload (t :: ts)
  rw [hload']
  cases hnew : readLines ((textAt files path).toList ++ recordChars (t :: ts)) with
  | error f => exact ⟨f.message, rfl⟩
  | ok us => exact absurd hnew (readLines_append_records_ne_ok hends hread t ts us)

/-- **New records are read back** behind those that a file held exactly if the file ends its lines. Otherwise the file
cannot be read any more. Either way the records are said to be kept. -/
theorem recorded_traces_are_loaded_iff (hpath : FileTree.NamesFile path)
    (hload : load (files.contentAt path) = .ok olds) (ts : List Task) :
    (store path).outcomes files ts = ts.map (fun _ => .ok ()) ∧
      (load (((store path).recordAll files ts).contentAt path) = .ok (olds ++ ts) ↔
        ts = [] ∨ EndsItsLines files path) ∧
      (ts ≠ [] → ¬EndsItsLines files path →
        ∃ detail, load (((store path).recordAll files ts).contentAt path) = .error (.serialization detail)) := by
  obtain ⟨content, text, hholds, -⟩ := exists_of_load hload
  refine ⟨(recordAll_spec hpath hholds ts).1, ⟨fun h => ?_, load_recordAll_of_ends hpath hload⟩,
    load_recordAll_of_not_ends hpath hload⟩
  by_contra hnot
  obtain ⟨hts, hends⟩ := not_or.1 hnot
  obtain ⟨detail, hdetail⟩ := load_recordAll_of_not_ends hpath hload hts hends
  cases h.symm.trans hdetail

/-! ## A file whose last line is not ended -/

/-- The record of a task that has ended. -/
def finished (id : TaskId) : Task where
  id := id
  status := .finished
  name := "job"
  title := "Job"
  userId := 1
  roleId := 2
  httpPort := 4001
  localPort := 4002
  startedAt := 10
  finishedAt := 13
  message := ""

/-- A directory with one file. -/
def oneFile (cs : List Char) : FileTree := .directory [("traces.jsonl", .file (Text.encodeUtf8 (String.ofList cs)))]

theorem namesFile_traces : FileTree.NamesFile "traces.jsonl" := ⟨by decide, by decide +kernel⟩

theorem holds_oneFile (cs : List Char) :
    Holds (oneFile cs) "traces.jsonl" (Text.encodeUtf8 (String.ofList cs)) :=
  .inl (namesFile_traces.contentAt_eq_ok_iff.2 rfl)

theorem textAt_oneFile (cs : List Char) : (textAt (oneFile cs) "traces.jsonl").toList = cs := by
  rw [(load_of_holds (holds_oneFile cs) (Text.decodeUtf8_encodeUtf8 _)).1, String.toList_ofList]

theorem load_oneFile (h : readLines cs = .ok olds) : load ((oneFile cs).contentAt "traces.jsonl") = .ok olds := by
  rw [(load_of_holds (holds_oneFile cs) (Text.decodeUtf8_encodeUtf8 _)).2, mapError_eq_ok_iff, String.toList_ofList, h]

/-- Records behind a blank line and blanks that no line feed ends. -/
theorem records_behind_blanks :
    load (((store "traces.jsonl").recordAll (oneFile (chars (finished 1).json ++ '\n' :: '\n' :: [' ', '\t']))
      [finished 2, finished 3]).contentAt "traces.jsonl") = .ok [finished 1, finished 2, finished 3] := by
  have hread : readLines (chars (finished 1).json ++ '\n' :: '\n' :: [' ', '\t']) = .ok [finished 1] :=
    readLines_record_append (finished 1) rfl
  have hends : EndsItsLines (oneFile (chars (finished 1).json ++ '\n' :: '\n' :: [' ', '\t'])) "traces.jsonl" := by
    have hopen := Text.openLine_append_feed (l := [' ', '\t']) (chars (finished 1).json ++ ['\n']) (by decide)
    rw [List.append_assoc, List.singleton_append] at hopen
    rw [EndsItsLines, textAt_oneFile, hopen]
    simp [isGap]
  have hload := (recorded_traces_are_loaded_iff namesFile_traces (load_oneFile hread)
    [finished 2, finished 3]).2.1.2 (.inr hends)
  rwa [List.singleton_append] at hload

/-- A record that no line feed ends is lost with the next one, although it was read before. -/
theorem unended_record_is_lost :
    load ((oneFile (chars (finished 1).json)).contentAt "traces.jsonl") = .ok [finished 1] ∧
      ∀ records, load (((store "traces.jsonl").recordAll (oneFile (chars (finished 1).json))
        [finished 2]).contentAt "traces.jsonl") ≠ .ok records := by
  have hfeed : '\n' ∉ chars (finished 1).json := fun h => (not_end_of_mem_chars _ _ h).1 rfl
  have hread : readLines (chars (finished 1).json) = .ok [finished 1] := by
    rw [readLines_unended hfeed, decodeChars_json]
    rfl
  have hends : ¬EndsItsLines (oneFile (chars (finished 1).json)) "traces.jsonl" := by
    rw [EndsItsLines, textAt_oneFile, Text.openLine_of_feed_notMem hfeed]
    intro hgaps
    cases hgaps '\x7b' List.mem_cons_self
  obtain ⟨detail, hdetail⟩ :=
    load_recordAll_of_not_ends namesFile_traces (load_oneFile hread) (List.cons_ne_nil (finished 2) []) hends
  refine ⟨load_oneFile hread, fun records h => ?_⟩
  cases h.symm.trans hdetail

end TraceFile

end ScriptRunner
