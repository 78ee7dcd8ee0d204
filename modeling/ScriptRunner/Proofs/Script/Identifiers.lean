import ScriptRunner.Proofs.Script.Naming
import ScriptRunner.Proofs.Text.Trimming
import ScriptRunner.Script.Binding

/-!
# Legal identifiers

`identifier` gives legal identifiers (`isIdentifier_identifier`), and a number behind one leaves it legal
(`isIdentifier_suffixed`). Reserved words are the only danger, and they have no underscore, while whatever is put in
front or behind has one. A legal identifier is its own (`identifier_eq_self_iff`), so `identifier` is a projection onto
them (`identifier_projects_onto_identifiers`). A word of lower-case letters that is not reserved is the identifier of
its own spellings alone, which differ from it in case and in blanks at the ends (`identifier_eq_iff`).
-/

namespace ScriptRunner.Script

/-- A character that an identifier may start with. -/
def isStartChar (c : Char) : Bool := c.isLower || c = '_'

/-- A text that can name a function or a parameter. -/
structure IsIdentifier (s : String) : Prop where
  start : ∃ c r, s.toList = c :: r ∧ isStartChar c = true
  name : IsName s
  unreserved : s ∉ reservedWords

theorem notMem_reservedWords {s : String} (h : '_' ∈ s.toList) : s ∉ reservedWords := by
  have hplain : ∀ w ∈ reservedWords, '_' ∉ w.toList := by decide
  exact fun hs => hplain s hs h

theorem isStartChar_of_isNameChar {c : Char} (h : isNameChar c = true) (hdigit : c.isDigit = false) :
    isStartChar c = true := by
  simpa [isNameChar, isStartChar, hdigit] using h

/-! ## Identifiers of names -/

section
variable {name : String} {c : Char} {r : List Char}

/-- Every name has a legal identifier. -/
theorem isIdentifier_identifier (name : String) : IsIdentifier (identifier name) := by
  cases h : nameChars name with
  | nil =>
    rw [identifier_of_nil h]
    exact ⟨⟨'s', "cript".toList, rfl, rfl⟩, identifier_of_nil h ▸ isName_identifier name, by decide⟩
  | cons c r =>
    have hname := isName_identifier name
    have hc : isNameChar c = true := isNameChar_of_mem_nameChars (h ▸ List.mem_cons_self)
    rw [identifier_of_cons h] at hname ⊢
    by_cases hdigit : c.isDigit = true
    · rw [if_pos hdigit] at hname ⊢
      exact ⟨⟨'_', c :: r, String.toList_ofList, rfl⟩, hname, notMem_reservedWords (by simp)⟩
    · have hstart : isStartChar c = true := isStartChar_of_isNameChar hc (by simpa using hdigit)
      rw [if_neg hdigit] at hname ⊢
      by_cases hreserved : reservedWords.contains (String.ofList (c :: r)) = true
      · rw [if_pos hreserved] at hname ⊢
        exact ⟨⟨c, r ++ ['_'], String.toList_ofList, hstart⟩, hname, notMem_reservedWords (by simp)⟩
      · rw [if_neg hreserved] at hname ⊢
        exact ⟨⟨c, r, String.toList_ofList, hstart⟩, hname, fun hm => hreserved (List.contains_iff_mem.2 hm)⟩

theorem isIdentifier_suffixed {base : String} (h : IsIdentifier base) (n : Nat) :
    IsIdentifier (Program.suffixed base n) := by
  obtain ⟨c, r, hbase, hstart⟩ := h.start
  refine ⟨⟨c, r ++ '_' :: Nat.toDigits 10 n, ?_, hstart⟩, Program.isName_suffixed h.name n, notMem_reservedWords ?_⟩
  · rw [Program.toList_suffixed, hbase, List.cons_append]
  · simp [Program.toList_suffixed]

/-! ## Spellings of a word -/

theorem not_isUpper_of_isLower (h : c.isLower = true) : ¬ c.isUpper = true := by
  simp only [Char.isLower, Char.isUpper, Bool.and_eq_true, decide_eq_true_eq, UInt32.le_iff_toNat_le] at h ⊢
  have : 'Z'.val.toNat = 90 := rfl
  have : 'a'.val.toNat = 97 := rfl
  omega

theorem not_isDigit_of_isLower (h : c.isLower = true) : ¬ c.isDigit = true := by
  simp only [Char.isLower, Char.isDigit, Bool.and_eq_true, decide_eq_true_eq, UInt32.le_iff_toNat_le] at h ⊢
  have : '9'.val.toNat = 57 := rfl
  have : 'a'.val.toNat = 97 := rfl
  omega

/-- Only the letter in either case stands for a lower-case letter. -/
theorem identifierChar_eq_iff {a : Char} (ha : a.isLower = true) : identifierChar c = a ↔ c.toLower = a := by
  unfold identifierChar
  split
  · exact Iff.rfl
  · rename_i hc
    have hneither : c.isUpper = false ∧ c.isLower = false := by
      simp only [Char.isAlphanum, Char.isAlpha, Bool.or_eq_true, decide_eq_true_eq, not_or, Bool.not_eq_true] at hc
      exact hc.1.1
    have hlower : c.toLower = c := Char.toLower_eq_of_not_isUpper (by simp [hneither.1])
    constructor
    · rintro rfl
      exact absurd ha (by decide)
    · rintro rfl
      rw [hlower, hneither.2] at ha
      cases ha

theorem map_identifierChar_eq_iff {cs w : List Char} (hw : ∀ a ∈ w, a.isLower = true) :
    cs.map identifierChar = w ↔ cs.map Char.toLower = w := by
  induction cs generalizing w with
  | nil => exact Iff.rfl
  | cons c cs ih =>
    cases w with
    | nil => simp
    | cons a w =>
      have hrest := ih fun b hb => hw b (List.mem_cons_of_mem a hb)
      simp only [List.map_cons, List.cons.injEq, identifierChar_eq_iff (hw a List.mem_cons_self), hrest]

/-- A text with an underscore is no word of lower-case letters. -/
theorem ofList_ne_of_underscore {word : String} {cs : List Char} (hlower : ∀ a ∈ word.toList, a.isLower = true)
    (hcs : '_' ∈ cs) : String.ofList cs ≠ word := by
  rintro rfl
  rw [String.toList_ofList] at hlower
  exact absurd (hlower '_' hcs) (by decide)

/-- A word of lower-case letters is the identifier of its own spellings alone, unless it is reserved or stands for a
blank name. -/
theorem identifier_eq_iff {word : String} (hlower : ∀ a ∈ word.toList, a.isLower = true)
    (hreserved : word ∉ reservedWords) (hblank : word ≠ "") (hscript : word ≠ "script") :
    identifier name = word ↔ equalIgnoringCase (Text.trim name) word = true := by
  have hword : word.toList.map Char.toLower = word.toList := by
    refine (List.map_congr_left fun a ha => ?_).trans (List.map_id _)
    exact Char.toLower_eq_of_not_isUpper (not_isUpper_of_isLower (hlower a ha))
  have hspelling : equalIgnoringCase (Text.trim name) word = true ↔ nameChars name = word.toList := by
    rw [nameChars, map_identifierChar_eq_iff hlower]
    simp [equalIgnoringCase, Text.trim, hword]
  rw [hspelling]
  cases h : nameChars name with
  | nil =>
    have hnil : word.toList ≠ [] := fun he => hblank (String.toList_eq_nil_iff.1 he)
    rw [identifier_of_nil h]
    exact iff_of_false hscript.symm hnil.symm
  | cons c r =>
    rw [identifier_of_cons h]
    split
    · rename_i hdigit
      have hne : c :: r ≠ word.toList := fun he =>
        not_isDigit_of_isLower (hlower c (he ▸ List.mem_cons_self)) hdigit
      exact iff_of_false (ofList_ne_of_underscore hlower List.mem_cons_self) hne
    · split
      · rename_i hcontains
        have hne : c :: r ≠ word.toList := fun he => by
          rw [he, String.ofList_toList] at hcontains
          exact hreserved (List.contains_iff_mem.1 hcontains)
        exact iff_of_false (ofList_ne_of_underscore hlower (by simp)) hne
      · rw [← String.toList_inj, String.toList_ofList]

/-! ## Fixed points -/

theorem isBlank_of_isNameChar (h : isNameChar c = true) : Text.isBlank c = false := by
  simp only [isNameChar, Bool.or_eq_true, decide_eq_true_eq] at h
  rcases h with (hlower | hdigit) | rfl
  · simp only [Char.isLower, Bool.and_eq_true, decide_eq_true_eq] at hlower
    have hlow : 97 ≤ c.toNat := hlower.1
    have hhigh : c.toNat ≤ 122 := hlower.2
    simp only [Text.isBlank, Bool.or_eq_false_iff, Bool.and_eq_false_iff, decide_eq_false_iff_not,
      beq_eq_false_iff_ne]
    omega
  · exact Text.isBlank_of_isDigit hdigit
  · decide

theorem identifierChar_of_isNameChar (h : isNameChar c = true) : identifierChar c = c := by
  simp only [isNameChar, Bool.or_eq_true, decide_eq_true_eq] at h
  rcases h with (hlower | hdigit) | rfl
  · rw [identifierChar, if_pos (by simp [Char.isAlphanum, Char.isAlpha, hlower])]
    exact Char.toLower_eq_of_not_isUpper (not_isUpper_of_isLower hlower)
  · rw [identifierChar, if_pos (by simp [Char.isAlphanum, hdigit])]
    exact Char.toLower_eq_of_not_isUpper (not_isUpper_of_isDigit hdigit)
  · decide

theorem not_isDigit_of_isStartChar (h : isStartChar c = true) : ¬ c.isDigit = true := by
  simp only [isStartChar, Bool.or_eq_true, decide_eq_true_eq] at h
  rcases h with hlower | rfl
  · exact not_isDigit_of_isLower hlower
  · decide

/-- What a legal name is made of is neither trimmed nor put differently. -/
theorem nameChars_of_isName (h : IsName name) : nameChars name = name.toList := by
  have hblank : Text.strip Text.isBlank name.toList = name.toList :=
    Text.strip_eq_self fun c hc => isBlank_of_isNameChar (h c hc)
  rw [nameChars, hblank]
  exact (List.map_congr_left fun c hc => identifierChar_of_isNameChar (h c hc)).trans (List.map_id _)

/-- **Legal identifiers are the texts that are their own identifiers.** -/
theorem identifier_eq_self_iff : identifier name = name ↔ IsIdentifier name := by
  constructor
  · intro h
    exact h ▸ isIdentifier_identifier name
  · intro h
    obtain ⟨c, r, hname, hstart⟩ := h.start
    have hdigit : ¬ c.isDigit = true := not_isDigit_of_isStartChar hstart
    have hfree : ¬ reservedWords.contains (String.ofList (c :: r)) = true := by
      rw [← hname, String.ofList_toList, List.contains_iff_mem]
      exact h.unreserved
    rw [identifier_of_cons ((nameChars_of_isName h.name).trans hname), if_neg hdigit, if_neg hfree, ← hname,
      String.ofList_toList]

/-- **Identifiers are a projection of names.** Every name has a legal identifier, which has itself as its identifier;
the names that are kept are the legal identifiers and no others; and with a number behind it, as functions get one, an
identifier is legal still. -/
theorem identifier_projects_onto_identifiers (name : String) :
    IsIdentifier (identifier name) ∧ identifier (identifier name) = identifier name ∧
      (identifier name = name ↔ IsIdentifier name) ∧
      (∀ n, IsIdentifier (Program.suffixed (identifier name) n)) ∧
      ∀ (p : Program) (parameters : List String) (body : String),
        IsIdentifier (p.linkNumbered (identifier name) parameters body).1 := by
  have hlegal := isIdentifier_identifier name
  refine ⟨hlegal, identifier_eq_self_iff.2 hlegal, identifier_eq_self_iff, isIdentifier_suffixed hlegal, ?_⟩
  intro p parameters body
  obtain ⟨-, -, n, hn⟩ := p.linkNumbered_spec (identifier name) parameters body
  rw [hn]
  exact isIdentifier_suffixed hlegal n

end

end ScriptRunner.Script
