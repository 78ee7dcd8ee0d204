import ScriptRunner.Proofs.Number.Magnitude
import ScriptRunner.Proofs.Script.Binding

/-!
# Numbers as literals of generated programs

A number stands in a program as it was given. What it means there is laid down by the numeric literals of ECMAScript: a
`DecimalLiteral` has the value of its digits, but a zero in front of octal digits makes a `LegacyOctalLiteral`, which no
point and no exponent may follow. So the literal of a bound number denotes the number exactly if its text does not start
like an octal one (`number_literals_in_programs`).

Values are those before rounding, which is the same on both sides. Literals with separators or with a prefix for another
base are left out, since no number is written with them.
-/

namespace ScriptRunner

open Decimal

namespace Script

/-! ## Numeric literals of ECMAScript -/

def isOctalDigit (c : Char) : Bool := c.isDigit && c ≠ '8' && c ≠ '9'

/-- The digits of a legacy octal literal. A decimal integer literal may start with them too. -/
inductive OctalLike : List Char → Prop
  | two {d} (hd : isOctalDigit d = true) : OctalLike ['0', d]
  | more {ds d} (h : OctalLike ds) (hd : isOctalDigit d = true) : OctalLike (ds ++ [d])

/-- The digits of a decimal integer literal that starts with a zero and has an 8 or a 9. -/
inductive NonOctal : List Char → Prop
  | two {d} (hd : d = '8' ∨ d = '9') : NonOctal ['0', d]
  | octalLike {ds d} (h : OctalLike ds) (hd : d = '8' ∨ d = '9') : NonOctal (ds ++ [d])
  | more {ds d} (h : NonOctal ds) (hd : d.isDigit = true) : NonOctal (ds ++ [d])

inductive DecimalInteger : List Char → Prop
  | zero : DecimalInteger ['0']
  | nonzero {d ds} (hd : d ≠ '0') (hds : ∀ c ∈ d :: ds, c.isDigit = true) : DecimalInteger (d :: ds)
  | nonOctal {ds} (h : NonOctal ds) : DecimalInteger ds

/-- A decimal literal and its value. -/
inductive DecimalLiteral : List Char → ℚ → Prop
  | whole {ws tail k} (hws : DecimalInteger ws) (htail : Power tail k) :
      DecimalLiteral (ws ++ tail) (digitsValue ws * 10 ^ k)
  | pointed {ws fs tail k} (hws : DecimalInteger ws) (hfs : ∀ c ∈ fs, c.isDigit = true) (htail : Power tail k) :
      DecimalLiteral (ws ++ '.' :: (fs ++ tail)) ((digitsValue ws + digitsValue fs / 10 ^ fs.length) * 10 ^ k)
  | bare {fs tail k} (hfs : IsDigits fs) (htail : Power tail k) :
      DecimalLiteral ('.' :: (fs ++ tail)) (digitsValue fs / 10 ^ fs.length * 10 ^ k)

/-- A legacy octal literal and its value. -/
inductive LegacyOctalLiteral : List Char → ℚ → Prop
  | octal {ds} (h : OctalLike ds) : LegacyOctalLiteral ds (Nat.ofDigitChars 8 ds 0)

/-- A literal, or one of the two signs applied to it. -/
inductive Signed (literal : List Char → ℚ → Prop) : List Char → ℚ → Prop
  | plain {cs v} (h : literal cs v) : Signed literal cs v
  | plus {cs v} (h : literal cs v) : Signed literal ('+' :: cs) v
  | minus {cs v} (h : literal cs v) : Signed literal ('-' :: cs) (-v)

/-! ## Integer literals -/

section Integers

variable {ds : List Char} {d : Char}

theorem isDigit_of_isOctalDigit (h : isOctalDigit d = true) : d.isDigit = true := by
  simp only [isOctalDigit, Bool.and_eq_true] at h
  exact h.1.1

theorem isOctalDigit_or (h : d.isDigit = true) : isOctalDigit d = true ∨ d = '8' ∨ d = '9' := by
  simp only [isOctalDigit, h, Bool.true_and, Bool.and_eq_true, decide_eq_true_eq]
  tauto

/-- Octal-like digits are a zero and octal digits. -/
theorem octalLike_iff : OctalLike ds ↔ ds.head? = some '0' ∧ ds.tail ≠ [] ∧ ds.tail.all isOctalDigit = true := by
  constructor
  · intro h
    induction h with
    | two hd => simp [hd]
    | @more ds d _ hd ih =>
      obtain ⟨hhead, htail, hall⟩ := ih
      have hne : ds ≠ [] := fun he => htail (by simp [he])
      simp [List.head?_append, List.tail_append_of_ne_nil, hhead, hne, hall, hd]
  · rintro ⟨hhead, htail, hall⟩
    obtain ⟨es, rfl⟩ := List.head?_eq_some_iff.1 hhead
    simp only [List.tail_cons, List.all_eq_true] at htail hall
    induction es using List.reverseRecOn with
    | nil => exact absurd rfl htail
    | append_singleton es d ih =>
      have hd := hall d (by simp)
      rcases List.eq_nil_or_concat es with rfl | ⟨_, _, rfl⟩
      · exact .two hd
      · exact .more (ih rfl (by simp) fun c hc => hall c (List.mem_append_left _ hc)) hd

instance : DecidablePred OctalLike := fun _ => decidable_of_iff' _ octalLike_iff

theorem OctalLike.isDigits (h : OctalLike ds) : IsDigits ds := by
  induction h with
  | two hd => exact ⟨nofun, by simpa using isDigit_of_isOctalDigit hd⟩
  | more _ hd ih => exact ih.append_left (by simpa using isDigit_of_isOctalDigit hd)

theorem NonOctal.isDigits (h : NonOctal ds) : IsDigits ds := by
  have hpast : ∀ {d : Char}, d = '8' ∨ d = '9' → ∀ c ∈ [d], c.isDigit = true := by
    rintro d (rfl | rfl) <;> simp
  induction h with
  | two hd => exact ⟨nofun, List.forall_mem_cons.2 ⟨rfl, hpast hd⟩⟩
  | octalLike h hd => exact h.isDigits.append_left (hpast hd)
  | more _ hd ih => exact ih.append_left (by simpa using hd)

theorem OctalLike.isOctalDigit (h : OctalLike ds) : ∀ c ∈ ds, isOctalDigit c = true := by
  obtain ⟨hhead, -, hall⟩ := octalLike_iff.1 h
  obtain ⟨es, rfl⟩ := List.head?_eq_some_iff.1 hhead
  exact List.forall_mem_cons.2 ⟨rfl, List.all_eq_true.1 hall⟩

theorem NonOctal.exists_mem (h : NonOctal ds) : ∃ c ∈ ds, Script.isOctalDigit c = false := by
  have hpast : ∀ {d : Char}, d = '8' ∨ d = '9' → Script.isOctalDigit d = false := by
    rintro d (rfl | rfl) <;> rfl
  induction h with
  | two hd => exact ⟨_, List.mem_cons_of_mem _ (List.mem_singleton_self _), hpast hd⟩
  | octalLike _ hd => exact ⟨_, List.mem_append_right _ (List.mem_singleton_self _), hpast hd⟩
  | more _ _ ih =>
    obtain ⟨c, hc, hpast⟩ := ih
    exact ⟨c, List.mem_append_left _ hc, hpast⟩

/-- An 8 or a 9 shows that digits are not octal, wherever it stands. -/
theorem NonOctal.not_octalLike (h : NonOctal ds) : ¬ OctalLike ds := by
  intro hoctal
  obtain ⟨c, hc, hpast⟩ := h.exists_mem
  rw [hoctal.isOctalDigit c hc] at hpast
  cases hpast

/-- More digits after a zero are octal or not. -/
theorem octalLike_or_nonOctal {es : List Char} (h : IsDigits es) : OctalLike ('0' :: es) ∨ NonOctal ('0' :: es) := by
  obtain ⟨hne, hall⟩ := h
  induction es using List.reverseRecOn with
  | nil => exact absurd rfl hne
  | append_singleton es d ih =>
    have hd := isOctalDigit_or (hall d (by simp))
    rcases List.eq_nil_or_concat es with rfl | ⟨_, _, rfl⟩
    · exact hd.imp .two .two
    · rcases ih (by simp) fun c hc => hall c (List.mem_append_left _ hc) with hes | hes
      · exact hd.imp hes.more (NonOctal.octalLike hes)
      · exact .inr (hes.more (hall d (by simp)))

/-- Digits are a decimal integer literal unless they make a legacy octal one. -/
theorem decimalInteger_iff : DecimalInteger ds ↔ IsDigits ds ∧ ¬ OctalLike ds := by
  constructor
  · intro h
    cases h with
    | zero => exact ⟨isDigits_zero, by decide⟩
    | nonzero hd hds =>
      refine ⟨⟨nofun, hds⟩, fun h => hd ?_⟩
      exact Option.some.inj (octalLike_iff.1 h).1
    | nonOctal h => exact ⟨h.isDigits, h.not_octalLike⟩
  · rintro ⟨⟨hne, hall⟩, hoctal⟩
    obtain ⟨d, es, rfl⟩ := List.exists_cons_of_ne_nil hne
    by_cases hd : d = '0'
    · subst hd
      rcases List.eq_nil_or_concat es with rfl | ⟨_, _, rfl⟩
      · exact .zero
      · have hes := octalLike_or_nonOctal ⟨by simp, fun c hc => hall c (List.mem_cons_of_mem _ hc)⟩
        exact .nonOctal (hes.resolve_left hoctal)
    · exact .nonzero hd hall

end Integers

/-! ## Literals of numbers -/

section Literals

variable {cs r : List Char} {v : ℚ} {n : Decimal}

/-- Decimal literals are the numerals that do not start like a legacy octal literal. -/
theorem decimalLiteral_iff : DecimalLiteral r v ↔
    ¬ OctalLike (r.takeWhile Char.isDigit) ∧ ∃ d k, Numeral r d k ∧ v = d * 10 ^ k := by
  constructor
  · intro h
    cases h with
    | @whole ws tail k hws htail =>
      obtain ⟨hdigits, hoctal⟩ := decimalInteger_iff.1 hws
      rw [(span_digits hdigits.2 htail.not_isDigit).1]
      exact ⟨hoctal, _, _, .whole hdigits htail, rfl⟩
    | @pointed ws fs tail k hws hfs htail =>
      obtain ⟨hdigits, hoctal⟩ := decimalInteger_iff.1 hws
      rw [(span_digits (r := '.' :: (fs ++ tail)) hdigits.2 (by simp)).1]
      exact ⟨hoctal, _, _, .pointed (hdigits.append_left hfs) htail, (digitsValue_pointed ws fs k).symm⟩
    | @bare fs tail k hfs htail =>
      have hoctal : ¬ OctalLike [] := by decide
      have hnumeral : Numeral ([] ++ '.' :: (fs ++ tail)) _ _ := .pointed hfs htail
      refine ⟨hoctal, _, _, hnumeral, ?_⟩
      simpa [digitsValue] using (digitsValue_pointed [] fs k).symm
  · rintro ⟨hoctal, d, k, h, rfl⟩
    cases h with
    | whole hws htail =>
      rw [(span_digits hws.2 htail.not_isDigit).1] at hoctal
      exact .whole (decimalInteger_iff.2 ⟨hws, hoctal⟩) htail
    | @pointed ws fs tail k hds htail =>
      have hws : ∀ c ∈ ws, c.isDigit = true := fun c hc => hds.2 c (List.mem_append_left fs hc)
      have hfs : ∀ c ∈ fs, c.isDigit = true := fun c hc => hds.2 c (List.mem_append_right ws hc)
      rw [(span_digits (r := '.' :: (fs ++ tail)) hws (by simp)).1] at hoctal
      rw [digitsValue_pointed]
      cases ws with
      | nil => simpa [digitsValue] using DecimalLiteral.bare hds htail
      | cons c ws => exact .pointed (decimalInteger_iff.2 ⟨⟨nofun, hws⟩, hoctal⟩) hfs htail

theorem DecimalLiteral.unsigned (h : DecimalLiteral cs v) : Unsigned cs := by
  obtain ⟨-, d, k, h, -⟩ := decimalLiteral_iff.1 h
  exact h.unsigned

theorem LegacyOctalLiteral.unsigned (h : LegacyOctalLiteral cs v) : Unsigned cs := by
  cases h with
  | octal h => exact List.append_nil cs ▸ unsigned_digits h.isDigits []

/-- What stands after the sign is the literal, if literals have no sign of their own. -/
theorem signed_iff {literal : List Char → ℚ → Prop} (hunsigned : ∀ {cs v}, literal cs v → Unsigned cs) :
    Signed literal cs v ↔ ∃ w, literal (splitSign cs).2 w ∧ v = if (splitSign cs).1 then -w else w := by
  constructor
  · intro h
    cases h with
    | plain h =>
      rw [splitSign_of_unsigned (hunsigned h)]
      exact ⟨v, h, rfl⟩
    | plus h => exact ⟨v, h, rfl⟩
    | @minus cs w h => exact ⟨w, h, rfl⟩
  · rintro ⟨w, h, rfl⟩
    rcases sign_cases cs with ⟨r, rfl⟩ | ⟨r, rfl⟩ | hcs
    · exact .plus h
    · exact .minus h
    · rw [splitSign_of_unsigned hcs] at h ⊢
      exact .plain h

/-- The text starts, after a sign, like a legacy octal literal. -/
def StartsOctal (cs : List Char) : Prop := OctalLike ((splitSign cs).2.takeWhile Char.isDigit)

instance : DecidablePred StartsOctal := fun cs =>
  inferInstanceAs (Decidable (OctalLike ((splitSign cs).2.takeWhile Char.isDigit)))

/-- What the digits after a sign denote in base 8. -/
def octalValue (cs : List Char) : ℚ :=
  let magnitude : ℚ := Nat.ofDigitChars 8 (splitSign cs).2 0
  if (splitSign cs).1 then -magnitude else magnitude

/-- The text of a number is a decimal literal of this number and of no other, unless it starts like an octal literal. -/
theorem signed_decimalLiteral_iff (h : parse? cs = some n) :
    Signed DecimalLiteral cs v ↔ ¬ StartsOctal cs ∧ v = n.value := by
  obtain ⟨hsign, hn⟩ := parse?_eq_some_iff.1 h
  rw [signed_iff DecimalLiteral.unsigned, hsign]
  constructor
  · rintro ⟨w, hw, rfl⟩
    obtain ⟨hoctal, d, k, hd, rfl⟩ := decimalLiteral_iff.1 hw
    obtain ⟨rfl, rfl⟩ := hd.unique hn
    exact ⟨hoctal, rfl⟩
  · rintro ⟨hoctal, rfl⟩
    exact ⟨n.magnitude, decimalLiteral_iff.2 ⟨hoctal, _, _, hn, rfl⟩, rfl⟩

theorem signed_legacyOctalLiteral_iff :
    Signed LegacyOctalLiteral cs v ↔ OctalLike (splitSign cs).2 ∧ v = octalValue cs := by
  rw [signed_iff LegacyOctalLiteral.unsigned]
  constructor
  · rintro ⟨w, ⟨h⟩, rfl⟩
    exact ⟨h, rfl⟩
  · rintro ⟨h, rfl⟩
    exact ⟨_, .octal h, rfl⟩

end Literals

/-! ## Bound numbers -/

/-- The text that is bound to a number parameter: the trimmed value, the default where this is empty, or a zero. -/
def Param.numberText (p : Param) (raw : Option String) : String :=
  let given := (raw.map Text.trim).getD ""
  let value := if given.isEmpty then p.default.getD "" else given
  if value.isEmpty then "0" else value

/-- A number parameter is bound to the text of a finite number. -/
theorem Param.bind_number {p : Param} {title : String} {raw : Option String} {b : BoundValue}
    (hk : p.kind = .number) (h : p.bind title raw = .ok b) :
    b = .number (p.numberText raw) ∧ isNumber (p.numberText raw) = true := by
  simp only [Param.bind, hk] at h
  simp only [Param.numberText]
  generalize (raw.map Text.trim).getD "" = given at h ⊢
  by_cases hmissing : (given.isEmpty && p.required) = true
  · rw [if_pos hmissing] at h
    cases h
  · rw [if_neg hmissing] at h
    generalize (if given.isEmpty then p.default.getD "" else given) = value at h ⊢
    by_cases hempty : value.isEmpty = true
    · rw [if_pos hempty] at h ⊢
      exact ⟨(Except.ok.inj h).symm, by decide +kernel⟩
    · rw [if_neg hempty] at h ⊢
      by_cases hnumber : isNumber value = true
      · rw [if_pos hnumber] at h
        exact ⟨(Except.ok.inj h).symm, hnumber⟩
      · rw [if_neg hnumber] at h
        cases h

variable {d : Definition} {values : Dict String} {bound : List (String × BoundValue)}

/-- **What the literals of bound numbers mean.** A number parameter is bound to a text that is read as a finite decimal
number, and its literal is this text. In a program the literal has the number as its value, and no other, unless it
starts like an octal literal. If it does it is no decimal literal: it is an octal one if there is nothing after these
digits, and else no literal at all. -/
theorem number_literals_in_programs (h : bindParams d values = .ok bound) :
    List.Forall₂ (fun p b => p.kind = .number →
      let text := p.numberText (values.find? p.name)
      b = (p.name, .number text) ∧ b.2.literal = text ∧
        ∃ n, Decimal.parse? text.toList = some n ∧ n.magnitude < binary64Limit ∧
          (∀ v, Signed DecimalLiteral text.toList v ↔ ¬ StartsOctal text.toList ∧ v = n.value) ∧
          ∀ v, Signed LegacyOctalLiteral text.toList v ↔
            OctalLike (splitSign text.toList).2 ∧ v = octalValue text.toList) d.params bound := by
  refine (bindParams_eq_ok_iff.1 h).imp fun p b hb hk => ?_
  intro text
  obtain ⟨hvalue, hnumber⟩ := Param.bind_number hk hb.2
  obtain ⟨n, hn, hfinite⟩ := (Option.any_eq_true _ _).1 hnumber
  refine ⟨Prod.ext hb.1 hvalue, by rw [hvalue]; rfl, n, hn, isFinite_iff.1 hfinite, fun v => ?_, fun v => ?_⟩
  · exact signed_decimalLiteral_iff hn
  · exact signed_legacyOctalLiteral_iff

/-- A definition with number parameters, given by their names and defaults. -/
def waiting (params : List (String × Option String)) : Definition :=
  { name := "wait", title := "", kind := .template, params := params.map fun p => ⟨p.1, "", .number, false, p.2⟩,
    body := "", tree := [], titles := .empty, unrunnable := false, role := none }

/-- A value with a bare point and an exponent, and a default with a zero in front. -/
theorem number_literals_of_waiting :
    let d := waiting [("pause", none), ("limit", some "08.5")]
    bindParams d (.ofList [("pause", " -.5e3 ")]) = .ok [("pause", .number "-.5e3"), ("limit", .number "08.5")] ∧
      Signed DecimalLiteral "-.5e3".toList (-500) ∧ Signed DecimalLiteral "08.5".toList (17 / 2) := by
  intro d
  have hbound : bindParams d (.ofList [("pause", " -.5e3 ")]) =
      .ok [("pause", .number "-.5e3"), ("limit", .number "08.5")] := by decide +kernel
  have hall := number_literals_in_programs hbound
  obtain _ | ⟨hpause, _ | ⟨hlimit, -⟩⟩ := hall
  obtain ⟨hb, -, n, hn, -, hpause, -⟩ := hpause rfl
  obtain ⟨hb', -, n', hn', -, hlimit, -⟩ := hlimit rfl
  rw [← BoundValue.number.inj (Prod.mk.inj hb).2] at hn hpause
  rw [← BoundValue.number.inj (Prod.mk.inj hb').2] at hn' hlimit
  obtain rfl : (⟨true, 5, 2⟩ : Decimal) = n := Option.some.inj hn
  obtain rfl : (⟨false, 85, -1⟩ : Decimal) = n' := Option.some.inj hn'
  refine ⟨hbound, (hpause _).2 ⟨by decide, ?_⟩, (hlimit _).2 ⟨by decide, ?_⟩⟩
  · norm_num [value, magnitude]
  · norm_num [value, magnitude]

/-- A number of octal digits after a zero is bound, but has another value in a program. -/
theorem octal_text_is_bound :
    (¬ ∀ (d : Definition) (values : Dict String) (bound : List (String × BoundValue)),
      bindParams d values = .ok bound → ∀ b ∈ bound, ∀ text, b.2 = .number text →
        ∃ n, Decimal.parse? text.toList = some n ∧ Signed DecimalLiteral text.toList n.value) ∧
      Decimal.parse? "010".toList = some ⟨false, 10, 0⟩ ∧ Signed LegacyOctalLiteral "010".toList 8 := by
  refine ⟨fun h => ?_, by decide, ?_⟩
  · have hbound : bindParams (waiting [("secs", none)]) (.ofList [("secs", "010")]) =
        .ok [("secs", .number "010")] := by decide +kernel
    obtain ⟨n, hn, hliteral⟩ := h _ _ _ hbound _ (List.mem_singleton_self _) _ rfl
    exact ((signed_decimalLiteral_iff hn).1 hliteral).1 (by decide)
  · have hoctal : LegacyOctalLiteral "010".toList (Nat.ofDigitChars 8 "010".toList 0) := .octal (by decide)
    exact .plain hoctal

end Script

end ScriptRunner
