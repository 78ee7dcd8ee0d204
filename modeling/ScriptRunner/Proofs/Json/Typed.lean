import ScriptRunner.Proofs.Document.Records
import ScriptRunner.Proofs.Json.Stored
import ScriptRunner.Proofs.Number.FixedWidth
import ScriptRunner.Script.Definition

/-!
# Typed values read back

The decoders of numbers, texts and opaque values take the value that was written from the document of its text. A record
that is written as an object with its fields in declaration order is decoded member after member (`decoder_written`).
-/

namespace ScriptRunner.Json

/-- The members of an object. -/
def members : Json → List (String × Json)
  | .object ms => ms
  | _ => []

variable (p : Place)

/-! ## Numbers and texts -/

/-- A number of the range that fits 64 bits. -/
theorem integer_written_of_contains {range : IntRange} {n : Int} (hrange : range.contains n = true) (hn : Fits n) :
    Decoder.integer range p (written (.int n)) = .ok n := by
  have hatom : (Scalar.number (.ofInt n)).atom = .ok (.int n) := by rw [Scalar.atom, Numeral.value?_ofInt hn]
  show Decoder.atPlace p ((Scalar.number (.ofInt n)).atom >>= Atom.asInteger range) = _
  rw [hatom]
  show Decoder.atPlace p (if range.contains n then Except.ok n else _) = _
  rw [if_pos hrange]
  rfl

/-- A number of an unsigned range. -/
theorem integer_written (range : IntRange) {m : Nat} (hlow : range.least = 0) (hhigh : (m : Int) ≤ range.greatest)
    (hm : m < 18446744073709551616) : Decoder.integer range p (written (.int m)) = .ok (m : Int) :=
  integer_written_of_contains p (IntRange.contains_iff.2 ⟨by omega, hhigh⟩) ⟨by omega, by omega⟩

theorem uint16_written (n : UInt16) : Decoder.uint16 p (written (.int n.toNat)) = .ok n := by
  have hn := n.toNat_lt
  have hread := integer_written p .uint16 rfl (by show (n.toNat : Int) ≤ 65535; omega) (by omega)
  exact map_eq_ok_iff.2 ⟨n.toNat, hread, UInt16.ofNat_toNat⟩

theorem uint32_written (n : UInt32) : Decoder.uint32 p (written (.int n.toNat)) = .ok n := by
  have hn := n.toNat_lt
  have hread := integer_written p .uint32 rfl (by show (n.toNat : Int) ≤ 4294967295; omega) (by omega)
  exact map_eq_ok_iff.2 ⟨n.toNat, hread, UInt32.ofNat_toNat⟩

theorem uint64_written (n : UInt64) : Decoder.uint64 p (written (.int n.toNat)) = .ok n := by
  have hn := n.toNat_lt
  have hread := integer_written p .uint64 rfl (by show (n.toNat : Int) ≤ 18446744073709551615; omega) (by omega)
  exact map_eq_ok_iff.2 ⟨n.toNat, hread, UInt64.ofNat_toNat⟩

theorem usize_written (n : UInt64) : Decoder.usize p (written (.int n.toNat)) = .ok n := by
  have hn := n.toNat_lt
  have hread := integer_written p .usize rfl (by show (n.toNat : Int) ≤ 18446744073709551615; omega) (by omega)
  exact map_eq_ok_iff.2 ⟨n.toNat, hread, UInt64.ofNat_toNat⟩

theorem int64_written (n : Int64) : Decoder.int64 p (written (.int n.toInt)) = .ok n := by
  have hlow : -9223372036854775808 ≤ n.toInt := n.le_toInt
  have hhigh : n.toInt < 9223372036854775808 := n.toInt_lt
  have hread := integer_written_of_contains p (IntRange.contains_int64 n) ⟨hlow, by omega⟩
  exact map_eq_ok_iff.2 ⟨n.toInt, hread, Int64.ofInt_toInt n⟩

theorem text_written (s : String) : Decoder.string p (written (.string s)) = .ok s := string_written p s

theorem boolean_written (b : Bool) : Decoder.boolean p (written (.bool b)) = .ok b := rfl

theorem optional_written (o : Option String) :
    Decoder.optional Decoder.string p (written (Script.optionalText o)) = .ok o := by
  cases o with
  | none => rfl
  | some s => exact map_eq_ok_iff.2 ⟨s, string_written p s, rfl⟩

/-! ## Opaque values by key -/

variable {p}

theorem entries_any (es : List (Written × Written)) : Decoder.entries Decoder.any p es = Decoder.anyEntries p es := by
  induction es with
  | nil => rfl
  | cons e es ih =>
    obtain ⟨k, d⟩ := e
    rw [Decoder.entries, Decoder.anyEntries, ih]

/-- The values of a dictionary as one object. -/
theorem dict_written {d : Dict Json} (hs : StoredMembers d.entries) (hf : ∀ x ∈ memberFloats d.entries, ReadsBack x)
    (hd : depthMembers d.entries < p.room) : Decoder.dict Decoder.any p (written (.object d.entries)) = .ok d := by
  obtain ⟨n, hn⟩ : ∃ n, p.room = n + 1 := ⟨p.room - 1, by omega⟩
  have hentries := anyEntries_written (p := ⟨p.path, n⟩) hs hf (by show _ ≤ n; omega)
  exact Decoder.inside_eq_ok_iff.2 ⟨n, hn, map_eq_ok_iff.2 ⟨d.entries, by rw [entries_any, hentries], d.ofList_entries⟩⟩

/-! ## Records -/

theorem keyed_written (ms : List (String × Json)) : Fields.Keyed p (ms.map Prod.fst) (writtenMembers ms) := by
  induction ms with
  | nil => exact .nil
  | cons m ms ih => 
    obtain ⟨k, a⟩ := m
    exact .cons (string_written p k) ih

theorem snd_written (ms : List (String × Json)) :
    (writtenMembers ms).map Prod.snd = ms.map fun m => written m.2 := by
  induction ms with
  | nil => rfl
  | cons m ms ih => rw [writtenMembers, List.map_cons, List.map_cons, ih]

/-- **A record that is written as an object** with its fields in order is decoded member after member. -/
theorem decoder_written {αs : List Type} {α : Type} {fs : Fields Scalar αs} {want : String} {build : Values αs → α}
    {ms : List (String × Json)} (hn : fs.names.Nodup) (hk : ms.map Prod.fst = fs.names) :
    fs.decoder want build p (.mapping (writtenMembers ms)) =
      Decoder.inside p fun q => (fs.inOrder q (ms.map fun m => written m.2)).map build := by
  have hentries : ∀ q, fs.fromEntries q (writtenMembers ms) = fs.inOrder q (ms.map fun m => written m.2) := by
    intro q
    rw [Fields.fromEntries_eq_inOrder hn (hk ▸ keyed_written ms), snd_written]
  show Decoder.inside p (fun q => (fs.fromEntries q (writtenMembers ms)).map build) = _
  simp only [hentries]

end ScriptRunner.Json
