import Mathlib.Data.List.TakeWhile
import ScriptRunner.Proofs.Document.Wholeness
import ScriptRunner.Proofs.Json.Locality
import ScriptRunner.Proofs.Json.Stored
import ScriptRunner.Text.Blank

/-!
# Texts that run into a value

What stands in front of the text of a value, on the same line, decides whether the value is read: gaps do not matter
(`decodeChars_gaps_append`), behind another value it is one too many (`decodeChars_append_ne_ok`), and a blank character
that is no gap belongs to no value (`decodeChars_append_ne_ok_of_blank`).
-/

namespace ScriptRunner.Json

variable {α : Type} {d : Decoder Scalar α} {cs gaps r : List Char} {c : Char} {n : Nat} {a b : α}

/-! ## Gaps -/

theorem isBlank_of_isGap (h : isGap c = true) : Text.isBlank c = true := by
  simp only [isGap, Bool.or_eq_true, decide_eq_true_eq] at h
  rcases h with ((rfl | rfl) | rfl) | rfl <;> rfl

theorem skipGap_gaps_append (h : ∀ c ∈ gaps, isGap c = true) (cs : List Char) : skipGap (gaps ++ cs) = skipGap cs :=
  List.dropWhile_append_of_pos h

theorem readValue_gaps_append (h : ∀ c ∈ gaps, isGap c = true) (n : Nat) (cs : List Char) :
    readValue n (gaps ++ cs) = readValue n cs := by
  cases n with
  | zero => rfl
  | succ n => simp only [readValue, skipGap_gaps_append h]

/-- Gaps in front of a value do not matter. -/
theorem decodeChars_gaps_append (h : ∀ c ∈ gaps, isGap c = true) (d : Decoder Scalar α) (v : Json) :
    decodeChars d (gaps ++ chars v) = decodeChars d (chars v) := by
  have hlength : (chars v).length ≤ (gaps ++ chars v).length + 1 := by
    rw [List.length_append]
    omega
  have hvalue := readValue_chars v hlength delimited_nil
  rw [List.append_nil] at hvalue
  have hread : read (gaps ++ chars v) = ⟨written v, false⟩ := by
    rw [read, readValue_gaps_append h, hvalue]
    rfl
  rw [decodeChars, decodeChars, hread, read_chars]

/-! ## Values -/

theorem decodeChars_eq_ok_iff :
    decodeChars d cs = .ok a ↔ (read cs).document.decode d = .ok a ∧ (read cs).overrun = false := by
  unfold decodeChars
  rw [bind_eq_ok_iff]
  constructor
  · rintro ⟨a', ha', h⟩
    split at h
    · cases h
    · rename_i hover
      exact ⟨ha'.trans h, Bool.eq_false_iff.2 hover⟩
  · rintro ⟨ha, hover⟩
    exact ⟨a, ha, by rw [hover]; rfl⟩

theorem skipGap_append_chars_ne_nil (r : List Char) (v : Json) : skipGap (r ++ chars v) ≠ [] := by
  obtain ⟨c, t, hc, hgap, -⟩ := chars_exists_cons v
  intro h
  have hall := List.dropWhile_eq_nil_iff.1 h c (List.mem_append_right r (by rw [hc]; exact List.mem_cons_self))
  rw [hgap] at hall
  cases hall

/-- No record is written as a scalar. -/
theorem decoder_scalar_ne_ok {αs : List Type} {fs : Fields Scalar αs} {want : String} {build : Values αs → α}
    {p : Place} {s : Scalar} : fs.decoder want build p (.scalar s) ≠ .ok a := by
  intro h
  have hmismatch : Decoder.mismatch want p (.scalar s) = .ok a := h
  exact Decoder.mismatch_ne_ok hmismatch

/-- **A value behind another one** is one too many, if the first one is whole and no scalar. -/
theorem decodeChars_append_ne_ok (hd : d.Thorough) (hscalar : ∀ p s a, d p (.scalar s) ≠ .ok a)
    (h : decodeChars d cs = .ok a) (v : Json) : decodeChars d (cs ++ chars v) ≠ .ok b := by
  obtain ⟨hdoc, -⟩ := decodeChars_eq_ok_iff.1 h
  rcases hread : readValue (cs.length + 1) cs with ⟨doc, r⟩
  have hdocument : (read cs).document = doc := by rw [read, hread]
  rw [hdocument] at hdoc
  have hnumber : ∀ x, doc = .scalar (.number x) → r ≠ [] := by
    rintro x rfl
    exact absurd hdoc (hscalar _ _ _)
  have hlength : cs.length + 1 ≤ (cs ++ chars v).length + 1 := by
    rw [List.length_append]
    omega
  have happend := readValue_append hread (hd _ doc a hdoc) hnumber hlength (chars v)
  intro hb
  have hover := (decodeChars_eq_ok_iff.1 hb).2
  rw [read, happend] at hover
  exact skipGap_append_chars_ne_nil r v (by simpa using hover)

/-! ## Blank characters -/

/-- No value starts with a blank character. -/
theorem readValue_of_blank (hgap : skipGap cs = c :: r) (hc : Text.isBlank c = true) (n : Nat) :
    readValue n cs = (.damaged, []) := by
  have hne : ∀ d : Char, Text.isBlank d = false → c ≠ d := by
    rintro d hd rfl
    rw [hd] at hc
    cases hc
  cases n with
  | zero => rfl
  | succ n =>
    rw [readValue, hgap]
    split
    -- The first characters of values are told apart, all but those of numbers.
    iterate 6
      rename_i heq
      exact absurd (List.cons.inj heq).1 (hne _ rfl)
    split
    · rename_i hx
      obtain ⟨e, t, he, hnumeral⟩ := exists_cons_of_numeral? hx
      obtain ⟨rfl, rfl⟩ := List.cons.inj he
      rcases hnumeral with rfl | hdigit
      · cases hc
      · rw [Text.isBlank_of_isDigit hdigit] at hc
        cases hc
    · rfl

/-- A blank character that is no gap spoils the value behind it. -/
theorem decodeChars_append_ne_ok_of_blank (hd : ∀ p a, d p .damaged ≠ .ok a)
    (hblank : ∀ c ∈ cs, Text.isBlank c = true) (hgap : ¬∀ c ∈ cs, isGap c = true) (ds : List Char) :
    decodeChars d (cs ++ ds) ≠ .ok a := by
  intro h
  have hskip : skipGap cs ≠ [] := fun hnil => hgap fun c hc => List.dropWhile_eq_nil_iff.1 hnil c hc
  obtain ⟨c, r, hcons⟩ := List.exists_cons_of_ne_nil hskip
  have hmem : c ∈ cs := (List.dropWhile_sublist _).mem (by rw [← skipGap, hcons]; exact List.mem_cons_self)
  obtain ⟨hdoc, -⟩ := decodeChars_eq_ok_iff.1 h
  rw [read, readValue_of_blank (skipGap_append hcons ds) (hblank c hmem)] at hdoc
  exact hd _ _ hdoc

end ScriptRunner.Json
