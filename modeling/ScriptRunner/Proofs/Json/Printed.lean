import ScriptRunner.Proofs.Json.Numerals

/-!
# Compact text reads back as its document

Every value has a document that its compact text is read as (`written`, `read_chars`): nothing is damaged, nothing is
left over and nothing changes, whatever the value holds. Whether the document decodes to the value again is another
question, since numerals may denote other numbers and decoders bound the depth. The text of a value lies on one line
(`plain_chars`).
-/

namespace ScriptRunner.Json

/-! ## The document of a value -/

mutual

/-- The document that the compact text of a value is read as. -/
def written : Json → Written
  | .null => .scalar .null
  | .bool b => .scalar (.bool b)
  | .int n => .scalar (.number (.ofInt n))
  | .float x => .scalar (.number (.ofFloat x))
  | .string s => .scalar (.string (some s.toList))
  | .array items => .sequence (writtenItems items)
  | .object members => .mapping (writtenMembers members)

def writtenItems : List Json → List Written
  | [] => []
  | a :: as => written a :: writtenItems as

def writtenMembers : List (String × Json) → List (Written × Written)
  | [] => []
  | (k, a) :: as => (.scalar (.string (some k.toList)), written a) :: writtenMembers as

end

section Reading

variable {c : Char} {n : Nat} {r : List Char} {x : Numeral}

theorem skipGap_cons (h : isGap c = false) : skipGap (c :: r) = c :: r := by
  simp [skipGap, h]

/-! ## Scalars -/

theorem readValue_quoted (s : String) :
    readValue (n + 1) (quoted s.toList ++ r) = (.scalar (.string (some s.toList)), r) := by
  rw [quoted, List.cons_append, List.append_assoc, List.singleton_append, readValue, skipGap_cons rfl]
  simp only [stringBody?_flatMap_escape]

/-- A numeral starts with a minus sign or a digit. -/
theorem Numeral.WellFormed.exists_cons (h : x.WellFormed) :
    ∃ d ds, x.chars = d :: ds ∧ (d = '-' ∨ d.isDigit = true) := by
  obtain ⟨d, ds, hd, hdigit⟩ := h.whole.exists_cons
  unfold Numeral.chars
  cases x.negative with
  | true => exact ⟨'-', _, rfl, .inl rfl⟩
  | false => exact ⟨d, _, by rw [hd]; rfl, .inr hdigit⟩

theorem isGap_of_numeral (h : c = '-' ∨ c.isDigit = true) : isGap c = false := by
  rcases h with rfl | h
  · rfl
  · simp only [isGap, Bool.or_eq_false_iff, decide_eq_false_iff_not]
    refine ⟨⟨⟨?_, ?_⟩, ?_⟩, ?_⟩ <;> rintro rfl <;> cases h

/-- Behind the first character of a numeral nothing but a numeral is read. -/
theorem readValue_of_numeral {cs : List Char} (hgap : skipGap cs = c :: r)
    (hc : c = '-' ∨ c.isDigit = true) :
    readValue (n + 1) cs = match numeral? (c :: r) with
      | some (x, r) => (.scalar (.number x), r)
      | none => (.damaged, []) := by
  have hne : ∀ d : Char, d ≠ '-' → d.isDigit = false → c ≠ d := by
    rintro d hminus hdigit rfl
    rcases hc with hc | hc
    · exact hminus hc
    · rw [hdigit] at hc
      cases hc
  rw [readValue, hgap]
  split
  · rename_i heq
    exact absurd (List.cons.inj heq).1 (hne _ (by decide) rfl)
  · rename_i heq
    exact absurd (List.cons.inj heq).1 (hne _ (by decide) rfl)
  · rename_i heq
    exact absurd (List.cons.inj heq).1 (hne _ (by decide) rfl)
  · rename_i heq
    exact absurd (List.cons.inj heq).1 (hne _ (by decide) rfl)
  · rename_i heq
    exact absurd (List.cons.inj heq).1 (hne _ (by decide) rfl)
  · rename_i heq
    exact absurd (List.cons.inj heq).1 (hne _ (by decide) rfl)
  · rfl

theorem readValue_numeral (h : x.WellFormed) (hr : Delimited r) :
    readValue (n + 1) (x.chars ++ r) = (.scalar (.number x), r) := by
  obtain ⟨d, ds, he, hd⟩ := h.exists_cons
  have hread := Numeral.numeral?_chars h hr
  rw [he, List.cons_append] at hread ⊢
  rw [readValue_of_numeral (skipGap_cons (isGap_of_numeral hd)) hd, hread]

/-! ## Collections -/

/-- A value starts with no blank and with nothing that ends a collection. -/
theorem chars_exists_cons (v : Json) : ∃ c r, chars v = c :: r ∧ isGap c = false ∧ c ≠ ']' := by
  have hnumeral : ∀ x : Numeral, x.WellFormed → ∃ c r, x.chars = c :: r ∧ isGap c = false ∧ c ≠ ']' := by
    intro x h
    obtain ⟨d, ds, he, hd⟩ := h.exists_cons
    refine ⟨d, ds, he, isGap_of_numeral hd, ?_⟩
    rintro rfl
    rcases hd with hd | hd <;> cases hd
  cases v with
  | null => exact ⟨_, _, rfl, rfl, by decide⟩
  | bool b => cases b <;> exact ⟨_, _, rfl, rfl, by decide⟩
  | int n =>
    obtain ⟨c, r, he, h⟩ := hnumeral _ (Numeral.wellFormed_ofInt n)
    exact ⟨c, r, by rw [chars, ← Numeral.chars_ofInt, he], h⟩
  | float x =>
    obtain ⟨c, r, he, h⟩ := hnumeral _ (Numeral.wellFormed_ofFloat x)
    exact ⟨c, r, by rw [chars, ← Numeral.chars_ofFloat, he], h⟩
  | string s => exact ⟨_, _, rfl, rfl, by decide⟩
  | array items => exact ⟨_, _, rfl, rfl, by decide⟩
  | object members => exact ⟨_, _, rfl, rfl, by decide⟩

theorem itemChars_cons (a : Json) (as : List Json) :
    itemChars (a :: as) = chars a ++ (if as = [] then [']'] else ',' :: itemChars as) := by
  cases as <;> simp [itemChars]

theorem memberChars_cons (k : String) (a : Json) (as : List (String × Json)) :
    memberChars ((k, a) :: as) =
      quoted k.toList ++ ':' :: (chars a ++ (if as = [] then ['\x7d'] else ',' :: memberChars as)) := by
  cases as <;> simp [memberChars]

end Reading

mutual

/-- The text of a value reads back in front of everything that does not continue a numeral. -/
theorem readValue_chars : ∀ (v : Json) {n : Nat} {r : List Char}, (chars v).length ≤ n → Delimited r →
    readValue n (chars v ++ r) = (written v, r)
  | v, 0, r, hn, _ => by
    obtain ⟨c, cs, he, -⟩ := chars_exists_cons v
    rw [he] at hn
    cases hn
  | .null, n + 1, r, _, _ => rfl
  | .bool true, n + 1, r, _, _ => rfl
  | .bool false, n + 1, r, _, _ => rfl
  | .int m, n + 1, r, _, hr => by
    rw [chars, ← Numeral.chars_ofInt]
    exact readValue_numeral (Numeral.wellFormed_ofInt m) hr
  | .float x, n + 1, r, _, hr => by
    rw [chars, ← Numeral.chars_ofFloat]
    exact readValue_numeral (Numeral.wellFormed_ofFloat x) hr
  | .string s, n + 1, r, _, _ => readValue_quoted s
  | .array [], n + 1, r, _, _ => rfl
  | .array (a :: as), n + 1, r, hn, _ => by
    have hitems := readItems_chars a as (n := n) (r := r) (by rw [chars, List.length_cons] at hn; omega)
    obtain ⟨c, cs, he, hgap, hclose⟩ := chars_exists_cons a
    rw [itemChars_cons, he, List.cons_append, List.cons_append] at hitems
    rw [chars, itemChars_cons, he, List.cons_append, List.cons_append, List.cons_append, readValue, skipGap_cons rfl]
    simp only [skipGap_cons hgap]
    split
    · rename_i heq
      exact absurd (List.cons.inj heq).1 hclose
    · rw [hitems, written]
  | .object [], n + 1, r, _, _ => rfl
  | .object ((k, a) :: as), n + 1, r, hn, _ => by
    have hmembers := readMembers_chars k a as (n := n) (r := r) (by rw [chars, List.length_cons] at hn; omega)
    rw [memberChars_cons, quoted, List.cons_append, List.cons_append] at hmembers
    rw [chars, memberChars_cons, quoted, List.cons_append, List.cons_append, List.cons_append, readValue,
      skipGap_cons rfl]
    simp only [skipGap_cons (c := '"') rfl]
    split
    · rename_i heq
      exact absurd (List.cons.inj heq).1 (by decide)
    · rw [hmembers, written]

theorem readItems_chars : ∀ (a : Json) (as : List Json) {n : Nat} {r : List Char},
    (itemChars (a :: as)).length ≤ n → readItems n (itemChars (a :: as) ++ r) = (writtenItems (a :: as), r)
  | a, as, 0, r, hn => by
    obtain ⟨c, cs, he, -⟩ := chars_exists_cons a
    rw [itemChars_cons, he] at hn
    cases hn
  | a, [], n + 1, r, hn => by
    have hvalue := readValue_chars a (n := n) (r := ']' :: r) (by simp [itemChars] at hn; omega)
      (delimited_cons (by decide))
    rw [itemChars, List.append_assoc, List.singleton_append, readItems, hvalue]
    simp only [skipGap_cons (c := ']') rfl]
    rfl
  | a, b :: bs, n + 1, r, hn => by
    rw [itemChars, List.length_append, List.length_cons] at hn
    · have hvalue := readValue_chars a (n := n) (r := ',' :: (itemChars (b :: bs) ++ r)) (by omega)
        (delimited_cons (by decide))
      have hitems := readItems_chars b bs (n := n) (r := r) (by omega)
      rw [itemChars, List.append_assoc, List.cons_append, readItems, hvalue]
      · simp only [skipGap_cons (c := ',') rfl, hitems]
        rfl
      · nofun
    · nofun

theorem readMembers_chars : ∀ (k : String) (a : Json) (as : List (String × Json)) {n : Nat} {r : List Char},
    (memberChars ((k, a) :: as)).length ≤ n →
    readMembers n (memberChars ((k, a) :: as) ++ r) = (writtenMembers ((k, a) :: as), r)
  | k, a, as, 0, r, hn => by
    rw [memberChars_cons] at hn
    cases hn
  | k, a, [], n + 1, r, hn => by
    have hvalue := readValue_chars a (n := n) (r := '\x7d' :: r) (by simp [memberChars] at hn; omega)
      (delimited_cons (by decide))
    rw [memberChars, quoted]
    simp only [List.cons_append, List.append_assoc, List.nil_append]
    rw [readMembers, skipGap_cons rfl]
    simp only [stringBody?_flatMap_escape, skipGap_cons (c := ':') rfl, hvalue, skipGap_cons (c := '\x7d') rfl]
    rfl
  | k, a, (l, b) :: bs, n + 1, r, hn => by
    have hvalue := readValue_chars a (n := n) (r := ',' :: (memberChars ((l, b) :: bs) ++ r))
      (by simp [memberChars] at hn; omega) (delimited_cons (by decide))
    have hmembers := readMembers_chars l b bs (n := n) (r := r) (by simp [memberChars] at hn; omega)
    rw [memberChars, quoted]
    simp only [List.cons_append, List.append_assoc, List.nil_append]
    rw [readMembers, skipGap_cons rfl]
    simp only [stringBody?_flatMap_escape, skipGap_cons (c := ':') rfl, hvalue, skipGap_cons (c := ',') rfl, hmembers]
    · rfl
    · nofun

end

/-- **Compact text reads back** as the document of its value, and nothing is left over. -/
theorem read_chars (v : Json) : read (chars v) = ⟨written v, false⟩ := by
  have hvalue := readValue_chars v (n := (chars v).length + 1) (Nat.le_succ _) delimited_nil
  rw [List.append_nil] at hvalue
  simp [read, hvalue, skipGap]

/-! ## No control characters -/

/-- None of the characters is a control character below U+0020. -/
def Plain (cs : List Char) : Prop := ∀ c ∈ cs, 0x20 ≤ c.toNat

instance : DecidablePred Plain := fun cs => List.decidableBAll _ cs

section Plain

variable {c : Char} {cs ds : List Char}

theorem plain_nil : Plain [] := nofun

theorem plain_cons : Plain (c :: cs) ↔ 0x20 ≤ c.toNat ∧ Plain cs := List.forall_mem_cons

theorem plain_append : Plain (cs ++ ds) ↔ Plain cs ∧ Plain ds := List.forall_mem_append

theorem plain_hexDigit : ∀ n < 16, 0x20 ≤ (hexDigit n).toNat := by
  decide

theorem plain_escape (c : Char) : Plain (escape c) := by
  unfold escape
  have hletter : ∀ d : Char, 0x20 ≤ d.toNat → Plain ['\\', d] := fun d hd =>
    plain_cons.2 ⟨by decide, plain_cons.2 ⟨hd, plain_nil⟩⟩
  repeat' split
  · exact hletter _ (by decide)
  · exact hletter _ (by decide)
  · exact hletter _ (by decide)
  · exact hletter _ (by decide)
  · exact hletter _ (by decide)
  · exact hletter _ (by decide)
  · exact hletter _ (by decide)
  · simp only [plain_cons, plain_hexDigit (c.toNat / 16) (by omega), plain_hexDigit (c.toNat % 16) (by omega)]
    exact ⟨by decide, by decide, by decide, by decide, trivial, trivial, plain_nil⟩
  · exact plain_cons.2 ⟨by omega, plain_nil⟩

theorem plain_quoted (cs : List Char) : Plain (quoted cs) := by
  refine plain_cons.2 ⟨by decide, plain_append.2 ⟨fun c hc => ?_, plain_cons.2 ⟨by decide, plain_nil⟩⟩⟩
  obtain ⟨d, -, hd⟩ := List.mem_flatMap.1 hc
  exact plain_escape d c hd

theorem plain_digits (h : Decimal.IsDigits ds) : Plain ds := by
  intro c hc
  have hdigit := h.2 c hc
  simp only [Char.isDigit, Bool.and_eq_true, decide_eq_true_eq] at hdigit
  exact Nat.le_trans (by decide) (show 48 ≤ c.toNat from hdigit.1)

theorem plain_numeral {x : Numeral} (h : x.WellFormed) : Plain x.chars := by
  unfold Numeral.chars
  refine plain_append.2 ⟨plain_append.2 ⟨plain_append.2 ⟨?_, plain_digits h.whole⟩, ?_⟩, ?_⟩
  · split
    · exact plain_cons.2 ⟨by decide, plain_nil⟩
    · exact plain_nil
  · cases hf : x.fraction with
    | none => exact plain_nil
    | some ds => exact plain_cons.2 ⟨by decide, plain_digits (h.fraction ds hf)⟩
  · cases he : x.exponent with
    | none => exact plain_nil
    | some e =>
      refine plain_cons.2 ⟨by decide, plain_cons.2 ⟨?_, plain_digits (h.exponent e he)⟩⟩
      split <;> decide

end Plain

mutual

/-- The text of a value stands on one line. -/
theorem plain_chars : ∀ v : Json, Plain (chars v)
  | .null => by decide
  | .bool true => by decide
  | .bool false => by decide
  | .int n => by
    rw [chars, ← Numeral.chars_ofInt]
    exact plain_numeral (Numeral.wellFormed_ofInt n)
  | .float x => by
    rw [chars, ← Numeral.chars_ofFloat]
    exact plain_numeral (Numeral.wellFormed_ofFloat x)
  | .string s => plain_quoted s.toList
  | .array items => plain_cons.2 ⟨by decide, plain_itemChars items⟩
  | .object members => plain_cons.2 ⟨by decide, plain_memberChars members⟩

theorem plain_itemChars : ∀ items : List Json, Plain (itemChars items)
  | [] => by decide
  | a :: as => by
    rw [itemChars_cons]
    refine plain_append.2 ⟨plain_chars a, ?_⟩
    split
    · exact plain_cons.2 ⟨by decide, plain_nil⟩
    · exact plain_cons.2 ⟨by decide, plain_itemChars as⟩

theorem plain_memberChars : ∀ members : List (String × Json), Plain (memberChars members)
  | [] => by decide
  | (k, a) :: as => by
    rw [memberChars_cons]
    refine plain_append.2 ⟨plain_quoted k.toList, plain_cons.2 ⟨by decide, plain_append.2 ⟨plain_chars a, ?_⟩⟩⟩
    split
    · exact plain_cons.2 ⟨by decide, plain_nil⟩
    · exact plain_cons.2 ⟨by decide, plain_memberChars as⟩

end

end ScriptRunner.Json
