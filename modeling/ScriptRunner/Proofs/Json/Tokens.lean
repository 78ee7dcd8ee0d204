import ScriptRunner.Json.Printer
import ScriptRunner.Json.Reader
import ScriptRunner.Proofs.Number.Digits

/-!
# Strings and numerals read back

The characters of a string are found again between its quotes, whatever they are (`stringBody?_flatMap_escape`). A
numeral has one text (`Numeral.chars`); if it is well formed, its text reads back in front of everything that does not
continue it (`Numeral.numeral?_chars`).
-/

namespace ScriptRunner.Json

open Decimal (IsDigits span_digits)

/-! ## Strings -/

section Strings

variable {c u : Char} {r : List Char}

theorem stringBody?_letter (hu : unescape? c = some u) (hc : c ≠ 'u') :
    stringBody? ('\\' :: c :: r) = (stringBody? r).map (addChar u) := by
  rw [stringBody?]
  · simp [hu]
  · exact fun _ _ _ _ _ h _ => hc h

theorem stringBody?_plain (hquote : c ≠ '"') (hslash : c ≠ '\\') (hc : ¬c.toNat < 0x20) :
    stringBody? (c :: r) = (stringBody? r).map (addChar c) := by
  rw [stringBody?]
  · simp [hc]
  · exact fun h => hquote h
  · exact fun _ _ _ _ _ h _ => hslash h
  · exact fun _ _ h _ => hslash h

theorem hexValue?_hexDigit : ∀ n < 16, hexValue? (hexDigit n) = some n := by
  decide

/-- A character below U+0020 is written by its number, which is half of no surrogate pair. -/
theorem stringBody?_number (hc : c.toNat < 0x20) :
    stringBody? ('\\' :: 'u' :: '0' :: '0' :: hexDigit (c.toNat / 16) :: hexDigit (c.toNat % 16) :: r) =
      (stringBody? r).map (addChar c) := by
  have hzero : hexValue? '0' = some 0 := rfl
  have hvalue : hexValue4? '0' '0' (hexDigit (c.toNat / 16)) (hexDigit (c.toNat % 16)) = some c.toNat := by
    simp only [hexValue4?, hzero, hexValue?_hexDigit (c.toNat / 16) (by omega),
      hexValue?_hexDigit (c.toNat % 16) (by omega), Option.bind_eq_bind, Option.bind_some, Option.some.injEq]
    omega
  have hhigh : isHighSurrogate c.toNat = false := by
    simp only [isHighSurrogate, Bool.and_eq_false_iff, decide_eq_false_iff_not]
    omega
  have hlow : isLowSurrogate c.toNat = false := by
    simp only [isLowSurrogate, Bool.and_eq_false_iff, decide_eq_false_iff_not]
    omega
  rw [stringBody?]
  simp [hvalue, hhigh, hlow, Char.ofNat_toNat]

/-- A written character reads back, whatever follows. -/
theorem stringBody?_escape (c : Char) (r : List Char) :
    stringBody? (escape c ++ r) = (stringBody? r).map (addChar c) := by
  unfold escape
  split
  · rename_i h
    exact h ▸ stringBody?_letter (c := '"') rfl (by decide)
  split
  · rename_i h
    exact h ▸ stringBody?_letter (c := '\\') rfl (by decide)
  split
  · rename_i h
    exact h ▸ stringBody?_letter (c := 'b') rfl (by decide)
  split
  · rename_i h
    exact h ▸ stringBody?_letter (c := 'f') rfl (by decide)
  split
  · rename_i h
    exact h ▸ stringBody?_letter (c := 'n') rfl (by decide)
  split
  · rename_i h
    exact h ▸ stringBody?_letter (c := 'r') rfl (by decide)
  split
  · rename_i h
    exact h ▸ stringBody?_letter (c := 't') rfl (by decide)
  split
  · rename_i h
    exact stringBody?_number h
  · rename_i hquote hslash _ _ _ _ _ hc
    exact stringBody?_plain hquote hslash hc

theorem stringBody?_flatMap_escape (cs r : List Char) :
    stringBody? (cs.flatMap escape ++ '"' :: r) = some (some cs, r) := by
  induction cs with
  | nil => rfl
  | cons c cs ih =>
    rw [List.flatMap_cons, List.append_assoc, stringBody?_escape, ih]
    rfl

end Strings

/-! ## The parts of a numeral -/

section Parts

variable {ds r : List Char}

/-- The text does not continue a numeral. -/
def Delimited (r : List Char) : Prop :=
  ∀ c ∈ r.head?, c.isDigit = false ∧ c ≠ '.' ∧ c ≠ 'e' ∧ c ≠ 'E'

theorem delimited_nil : Delimited [] := nofun

theorem delimited_cons {c : Char} (h : c.isDigit = false ∧ c ≠ '.' ∧ c ≠ 'e' ∧ c ≠ 'E') : Delimited (c :: r) := by
  intro d hd
  rwa [← Option.some.inj hd]

theorem digits?_append (h : IsDigits ds) (hr : ∀ c ∈ r.head?, c.isDigit = false) :
    digits? (ds ++ r) = some (ds, r) := by
  obtain ⟨htake, hdrop⟩ := span_digits h.2 hr
  unfold digits?
  rw [htake, hdrop]
  cases ds with
  | nil => exact absurd rfl h.1
  | cons d ds => rfl

end Parts

namespace Numeral

/-- The text of a numeral. -/
def chars (x : Numeral) : List Char :=
  (if x.negative then ['-'] else []) ++ x.whole ++ (x.fraction.elim [] fun ds => '.' :: ds) ++
    x.exponent.elim [] fun e => 'e' :: (if e.1 then '-' else '+') :: e.2

/-- There are digits wherever there have to be some, and a zero stands first only if it stands alone. -/
structure WellFormed (x : Numeral) : Prop where
  whole : IsDigits x.whole
  first : x.whole.head? = some '0' → x.whole = ['0']
  fraction : ∀ ds, x.fraction = some ds → IsDigits ds
  exponent : ∀ e, x.exponent = some e → IsDigits e.2

variable {x : Numeral} {r : List Char}

theorem exponent?_chars (h : ∀ e, x.exponent = some e → IsDigits e.2) (hr : Delimited r) :
    exponent? ((x.exponent.elim [] fun e => 'e' :: (if e.1 then '-' else '+') :: e.2) ++ r) = some (x.exponent, r) := by
  cases he : x.exponent with
  | none =>
    cases r with
    | nil => rfl
    | cons c r =>
      obtain ⟨-, -, hsmall, hcapital⟩ := hr c rfl
      simp [exponent?, hsmall, hcapital]
  | some e =>
    obtain ⟨negative, ds⟩ := e
    have hdigits := digits?_append (h _ he) fun c hc => (hr c hc).1
    cases negative <;> simp [exponent?, hdigits]

theorem fraction?_chars {t : List Char} (h : ∀ ds, x.fraction = some ds → IsDigits ds)
    (hdigit : ∀ c ∈ t.head?, c.isDigit = false) (hpoint : ∀ c ∈ t.head?, c ≠ '.') :
    fraction? ((x.fraction.elim [] fun ds => '.' :: ds) ++ t) = some (x.fraction, t) := by
  cases hf : x.fraction with
  | none =>
    cases t with
    | nil => rfl
    | cons c t =>
      have hc : c ≠ '.' := hpoint c rfl
      rw [fraction?.eq_def]
      simp only [Option.elim, List.nil_append]
      split
      · rename_i he
        exact absurd (List.cons.inj he).1 hc
      · rfl
  | some ds => simp [fraction?, digits?_append (h _ hf) hdigit]

theorem whole?_chars {t : List Char} (h : x.WellFormed) (ht : ∀ c ∈ t.head?, c.isDigit = false) :
    whole? (x.whole ++ t) = some (x.whole, t) := by
  have hdigits := digits?_append h.whole ht
  unfold whole?
  rw [hdigits]
  split
  · rename_i d ds r he
    have hw : x.whole = '0' :: d :: ds := (Prod.mk.inj (Option.some.inj he)).1
    have hone := h.first (by rw [hw]; rfl)
    rw [hw] at hone
    cases hone
  · rfl

/-- What follows the digits before the point. -/
theorem head?_exponent (hr : Delimited r) :
    ∀ c ∈ ((x.exponent.elim [] fun e => 'e' :: (if e.1 then '-' else '+') :: e.2) ++ r).head?,
      c.isDigit = false ∧ c ≠ '.' := by
  intro c hc
  cases he : x.exponent with
  | none =>
    rw [he] at hc
    exact ⟨(hr c hc).1, (hr c hc).2.1⟩
  | some e =>
    rw [he] at hc
    obtain rfl : 'e' = c := Option.some.inj hc
    exact ⟨rfl, by decide⟩

theorem head?_fraction {t : List Char} (ht : ∀ c ∈ t.head?, c.isDigit = false) :
    ∀ c ∈ ((x.fraction.elim [] fun ds => '.' :: ds) ++ t).head?, c.isDigit = false := by
  intro c hc
  cases hf : x.fraction with
  | none =>
    rw [hf] at hc
    exact ht c hc
  | some ds =>
    rw [hf] at hc
    obtain rfl : '.' = c := Option.some.inj hc
    rfl

/-- What `numeral?` does after the sign. -/
def unsigned? (negative : Bool) (cs : List Char) : Option (Numeral × List Char) := do
  let (whole, cs) ← whole? cs
  let (fraction, cs) ← fraction? cs
  let (exponent, cs) ← exponent? cs
  some (⟨negative, whole, fraction, exponent⟩, cs)

theorem numeral?_minus : numeral? ('-' :: r) = unsigned? true r := rfl

theorem numeral?_cons {d : Char} (hd : d ≠ '-') : numeral? (d :: r) = unsigned? false (d :: r) := by
  unfold numeral?
  split
  rename_i he
  split at he
  · rename_i hc
    exact absurd (List.cons.inj hc).1 hd
  · obtain ⟨rfl, rfl⟩ := Prod.mk.inj he
    rfl

/-- **The text of a numeral reads back**, whatever follows that does not continue it. -/
theorem numeral?_chars (h : x.WellFormed) (hr : Delimited r) : numeral? (x.chars ++ r) = some (x, r) := by
  have hexp := exponent?_chars h.exponent hr
  have hhead := head?_exponent (x := x) hr
  have hfrac := fraction?_chars h.fraction (fun c hc => (hhead c hc).1) fun c hc => (hhead c hc).2
  have hwhole := whole?_chars h (head?_fraction (x := x) fun c hc => (hhead c hc).1)
  have hunsigned : ∀ negative, unsigned? negative (x.whole ++ ((x.fraction.elim [] fun ds => '.' :: ds) ++
      ((x.exponent.elim [] fun e => 'e' :: (if e.1 then '-' else '+') :: e.2) ++ r))) =
        some (⟨negative, x.whole, x.fraction, x.exponent⟩, r) := by
    intro negative
    simp only [unsigned?, hwhole, hfrac, hexp, Option.bind_eq_bind, Option.bind_some]
  obtain ⟨d, ds, hd, hdigit⟩ := h.whole.exists_cons
  have hminus : d ≠ '-' := fun he => by rw [he] at hdigit; cases hdigit
  unfold chars
  cases hneg : x.negative with
  | true =>
    simp only [List.append_assoc, ↓reduceIte, List.cons_append, List.nil_append]
    rw [numeral?_minus, hunsigned, ← hneg]
  | false =>
    simp only [List.append_assoc, Bool.false_eq_true, ↓reduceIte, List.nil_append]
    refine Eq.trans ?_ ((hunsigned false).trans (by rw [← hneg]))
    rw [hd]
    exact numeral?_cons hminus

end Numeral

end ScriptRunner.Json
