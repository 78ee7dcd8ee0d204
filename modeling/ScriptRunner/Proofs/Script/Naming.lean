import Mathlib
import ScriptRunner.Script.Compilation

/-!
# Names of generated functions

All names are made of the characters of identifiers (`isName_identifier`, `isName_suffixed`). Two numbers never give a
base name the same suffix (`suffixed_injective`), so the search for a free number ends at a name that is not in use
(`suffixed_freeSuffix_notMem`). Hence linking either finds the function that templates of the same base name and body
share, or adds one function at the end whose name is new (`linkNamed_spec`, `linkTemplate_cases`, `linkRaw_spec`).
-/

namespace ScriptRunner.Script

/-! ## Characters -/

/-- A character that identifiers are made of. -/
def isNameChar (c : Char) : Bool := c.isLower || c.isDigit || c = '_'

def IsName (s : String) : Prop := ∀ c ∈ s.toList, isNameChar c = true

theorem not_isUpper_of_isDigit {c : Char} (h : c.isDigit = true) : ¬ c.isUpper = true := by
  simp only [Char.isUpper, Char.isDigit, Bool.and_eq_true, decide_eq_true_eq, UInt32.le_iff_toNat_le] at h ⊢
  have : 'A'.val.toNat = 65 := rfl
  have : '9'.val.toNat = 57 := rfl
  omega

theorem isNameChar_identifierChar (c : Char) : isNameChar (identifierChar c) = true := by
  unfold identifierChar
  split
  · rename_i h
    simp only [Char.isAlphanum, Bool.or_eq_true, decide_eq_true_eq] at h
    rcases h with (halpha | hdigit) | rfl
    · simp [isNameChar, halpha]
    · simp [isNameChar, Char.toLower_eq_of_not_isUpper (not_isUpper_of_isDigit hdigit), hdigit]
    · decide
  · decide

/-! ## Identifiers of names -/

theorem isName_ofList {cs : List Char} : IsName (String.ofList cs) ↔ ∀ c ∈ cs, isNameChar c = true := by
  rw [IsName, String.toList_ofList]

/-- The characters of a name without the blanks at its ends, as they stand in its identifier. -/
def nameChars (name : String) : List Char := (Text.strip Text.isBlank name.toList).map identifierChar

section
variable {name : String} {c : Char} {r : List Char}

theorem isNameChar_of_mem_nameChars (h : c ∈ nameChars name) : isNameChar c = true := by
  obtain ⟨a, -, rfl⟩ := List.mem_map.1 h
  exact isNameChar_identifierChar a

theorem identifier_of_nil (h : nameChars name = []) : identifier name = "script" := by
  simp only [identifier, show (Text.strip Text.isBlank name.toList).map identifierChar = [] from h]

theorem identifier_of_cons (h : nameChars name = c :: r) :
    identifier name =
      if c.isDigit then String.ofList ('_' :: c :: r)
      else if reservedWords.contains (String.ofList (c :: r)) then String.ofList (c :: r ++ ['_'])
      else String.ofList (c :: r) := by
  simp only [identifier, show (Text.strip Text.isBlank name.toList).map identifierChar = c :: r from h]

end

theorem isName_identifier (name : String) : IsName (identifier name) := by
  cases h : nameChars name with
  | nil =>
    have hscript : "script".toList.all isNameChar = true := by decide
    rw [identifier_of_nil h]
    exact List.all_eq_true.1 hscript
  | cons c r =>
    have hunderscore : isNameChar '_' = true := by decide
    have hcs : ∀ a ∈ c :: r, isNameChar a = true := by
      intro a ha
      exact isNameChar_of_mem_nameChars (h ▸ ha)
    rw [identifier_of_cons h]
    split
    · exact isName_ofList.2 (List.forall_mem_cons.2 ⟨hunderscore, hcs⟩)
    · split
      · refine isName_ofList.2 (List.forall_mem_append.2 ⟨hcs, ?_⟩)
        exact List.forall_mem_singleton.2 hunderscore
      · exact isName_ofList.2 hcs

namespace Program

/-! ## Suffixes -/

section
variable {base : String} {names : List String} {n : Nat}

theorem toList_suffixed (base : String) (n : Nat) :
    (suffixed base n).toList = base.toList ++ '_' :: Nat.toDigits 10 n := by
  show ((base ++ "_" ++ toString n : String)).toList = _
  simp [Nat.toString_eq_repr, Nat.toList_repr]

theorem suffixed_injective (base : String) : Function.Injective (suffixed base) := by
  intro m n h
  have hl := congrArg String.toList h
  rw [toList_suffixed, toList_suffixed] at hl
  have hd : Nat.toDigits 10 m = Nat.toDigits 10 n := (List.cons.inj (List.append_cancel_left hl)).2
  rw [← Nat.ofDigitChars_ten_toDigits (n := m), hd, Nat.ofDigitChars_ten_toDigits]

theorem isName_suffixed (h : IsName base) (n : Nat) : IsName (suffixed base n) := by
  intro c hc
  rw [toList_suffixed] at hc
  rcases List.mem_append.1 hc with hc | hc
  · exact h c hc
  · rcases List.mem_cons.1 hc with rfl | hc
    · decide
    · have hdigit : c.isDigit = true := Nat.isDigit_of_mem_toDigits (by decide) (by decide) hc
      simp [isNameChar, hdigit]

/-- The names that a base name is linked under. -/
theorem isName_linked {name : String} (h : IsName base) (hname : name = base ∨ ∃ n, name = suffixed base n) :
    IsName name := by
  rcases hname with rfl | ⟨n, rfl⟩
  · exact h
  · exact isName_suffixed h n

theorem le_freeSuffix (base : String) (names : List String) (n : Nat) : n ≤ freeSuffix base names n := by
  fun_induction freeSuffix base names n with
  | case1 names n _ ih => omega
  | case2 names n _ => exact Nat.le_refl n

/-- The number that the search ends at is free. A name that the search crosses out is not met again. -/
theorem suffixed_freeSuffix_notMem (base : String) (names : List String) (n : Nat) :
    suffixed base (freeSuffix base names n) ∉ names := by
  fun_induction freeSuffix base names n with
  | case1 names n _ ih =>
    have hne : suffixed base (freeSuffix base (names.erase (suffixed base n)) (n + 1)) ≠ suffixed base n := by
      intro he
      have hle := le_freeSuffix base (names.erase (suffixed base n)) (n + 1)
      rw [suffixed_injective base he] at hle
      omega
    exact fun hm => ih ((List.mem_erase_of_ne hne).2 hm)
  | case2 names n h => exact h

end

/-! ## Linking -/

/-- The program `q` is `p` with one more function at the end, whose name is new. -/
structure Adds (p q : Program) (f : Function) : Prop where
  functions : q.functions = p.functions ++ [f]
  fresh : f.name ∉ p.functionNames

theorem Adds.functionNames {p q : Program} {f : Function} (h : p.Adds q f) :
    q.functionNames = p.functionNames ++ [f.name] := by
  simp [Program.functionNames, h.functions]

section
variable {p : Program} {base body : String} {parameters : List String}

theorem isLinked_eq_true_iff {name : String} : p.isLinked name = true ↔ name ∈ p.functionNames := by
  simp [isLinked]

theorem linkNumbered_spec (p : Program) (base : String) (parameters : List String) (body : String) :
    let linked := p.linkNumbered base parameters body
    p.Adds linked.2 ⟨linked.1, parameters, body⟩ ∧ linked.2.shared = p.shared ∧ ∃ n, linked.1 = suffixed base n :=
  ⟨⟨rfl, suffixed_freeSuffix_notMem base p.functionNames (p.counter + 1)⟩, rfl, _, rfl⟩

theorem linkNamed_spec (p : Program) (base : String) (parameters : List String) (body : String) :
    let linked := p.linkNamed base parameters body
    p.Adds linked.2 ⟨linked.1, parameters, body⟩ ∧ linked.2.shared = p.shared ∧
      (linked.1 = base ∨ ∃ n, linked.1 = suffixed base n) := by
  unfold linkNamed
  split
  · obtain ⟨hadds, hshared, hname⟩ := p.linkNumbered_spec base parameters body
    exact ⟨hadds, hshared, .inr hname⟩
  · rename_i h
    exact ⟨⟨rfl, fun hm => h (isLinked_eq_true_iff.2 hm)⟩, rfl, .inl rfl⟩

/-- A new entry of the table is found under its own key, and the others as before. -/
theorem shared?_append {q : Program} {key : String × String} {entry : String}
    (hq : q.shared = p.shared ++ [(key, entry)]) (hnone : p.shared? key.1 key.2 = none) {name : String} :
    q.shared? base body = some name ↔ p.shared? base body = some name ∨ (key = (base, body) ∧ entry = name) := by
  unfold shared? at hnone ⊢
  rw [hq, List.find?_append]
  by_cases hkey : key = (base, body)
  · subst hkey
    simp only [Option.map_eq_none_iff] at hnone
    simp [hnone]
  · simp [hkey]

/-- A template body is linked to the function that shares it, or to a new one that is shared from then on. -/
theorem linkTemplate_cases (p : Program) (base : String) (parameters : List String) (body : String) :
    let linked := p.linkTemplate base parameters body
    (p.shared? base body = some linked.1 ∧ linked.2 = p) ∨
      (p.shared? base body = none ∧ p.Adds linked.2 ⟨linked.1, parameters, body⟩ ∧
        linked.2.shared = p.shared ++ [((base, body), linked.1)] ∧
        (linked.1 = base ∨ ∃ n, linked.1 = suffixed base n)) := by
  unfold linkTemplate
  split
  · rename_i name h
    exact .inl ⟨h, rfl⟩
  · rename_i h
    obtain ⟨hadds, hshared, hname⟩ := p.linkNamed_spec base parameters body
    exact .inr ⟨h, ⟨hadds.functions, hadds.fresh⟩, by simp only [hshared], hname⟩

end

end Program

end ScriptRunner.Script
