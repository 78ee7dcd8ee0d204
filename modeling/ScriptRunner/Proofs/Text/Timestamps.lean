import ScriptRunner.Proofs.Number.Digits
import ScriptRunner.Time

/-!
# The text of an instant reads back

An instant that exists is the instant that its text denotes (`parse?_text`): every part has as many digits as its reader
takes, the decimal places stand for the same nanoseconds, and the offset of `Z` is none.
-/

namespace ScriptRunner.Instant

open Decimal

section Parts

variable {c : Char} {ds r : List Char} {n most width : Nat}

theorem skipBlanks_cons (h : Text.isBlank c = false) : skipBlanks (c :: r) = c :: r := by
  simp [skipBlanks, h]

/-- A number is read whole if it has as many digits as its reader takes, or if no digit follows. -/
theorem number?_append (hd : IsDigits ds) (hlen : ds.length ≤ most)
    (hr : ds.length = most ∨ ∀ c ∈ r.head?, c.isDigit = false) :
    number? most (ds ++ r) = some (digitsValue ds, r) := by
  obtain ⟨d, ds', he, hdigit⟩ := hd.exists_cons
  have hskip : skipBlanks (ds ++ r) = ds ++ r := by
    rw [he, List.cons_append, skipBlanks_cons (Text.isBlank_of_isDigit hdigit)]
  have hrest : (r.take (most - ds.length)).takeWhile Char.isDigit = [] := by
    rcases hr with hr | hr
    · rw [hr, Nat.sub_self]
      rfl
    · cases r with
      | nil => simp
      | cons c r =>
        cases most - ds.length with
        | zero => rfl
        | succ m => simp [hr c rfl]
  have htake : ((ds ++ r).take most).takeWhile Char.isDigit = ds := by
    rw [List.take_append, List.take_of_length_le hlen, List.takeWhile_append_of_pos hd.2, hrest, List.append_nil]
  have hempty : ds.isEmpty = false := by rw [he]; rfl
  unfold number?
  simp only [hskip, htake, hempty, Bool.false_eq_true, ↓reduceIte, List.drop_left]

theorem isDigits_padded (width n : Nat) : IsDigits (padded width n) :=
  (isDigits_toDigits n).append_right isDigit_zeros

theorem digitsValue_padded (width n : Nat) : digitsValue (padded width n) = n := by
  rw [padded, digitsValue_zeros_append, digitsValue_toDigits]

theorem length_padded (hw : 0 < width) (h : n < Nat.pow 10 width) : (padded width n).length = width := by
  have hlen := (Nat.length_toDigits_le_iff (b := 10) (by decide) hw).2 h
  simp only [padded, List.length_append, List.length_replicate]
  omega

/-- A number that fits its width is read back, whatever follows. -/
theorem number?_padded (hw : 0 < width) (h : n < Nat.pow 10 width) :
    number? width (padded width n ++ r) = some (n, r) := by
  have hlen := length_padded hw h
  rw [number?_append (isDigits_padded width n) (Nat.le_of_eq hlen) (.inl hlen), digitsValue_padded]

theorem separator?_cons (h : Text.isBlank c = false) : separator? c (c :: r) = some r := by
  simp [separator?, skipBlanks_cons h]

/-- Digits in front of a sign are all the digits that follow it. -/
theorem number?_signed (hd : IsDigits ds) : number? (ds ++ '-' :: r).length (ds ++ '-' :: r) =
    some (digitsValue ds, '-' :: r) := by
  refine number?_append hd (by simp) (.inr ?_)
  rintro _ ⟨⟩
  rfl

theorem signed_padded (width n : Nat) : year?.signed (padded width n ++ '-' :: r) = some (n, '-' :: r) := by
  obtain ⟨d, ds, he, hdigit⟩ := (isDigits_padded width n).exists_cons
  have hnumber := number?_signed (r := r) (isDigits_padded width n)
  rw [digitsValue_padded] at hnumber
  rw [he] at hnumber ⊢
  unfold year?.signed
  rw [List.cons_append] at hnumber ⊢
  simp only [hdigit, ↓reduceIte]
  exact hnumber

theorem year?_yearText (y : Int) : year? (yearText y ++ '-' :: r) = some (y, '-' :: r) := by
  unfold yearText
  split
  · rename_i hy
    have hnumber := number?_padded (n := y.toNat) (r := '-' :: r) (by decide : 0 < 4) (show y.toNat < 10000 by omega)
    obtain ⟨d, ds, he, hdigit⟩ := (isDigits_padded 4 y.toNat).exists_cons
    have hvalue : Int.ofNat y.toNat = y := Int.toNat_of_nonneg hy.1
    rw [he, List.cons_append] at hnumber ⊢
    unfold year?
    rw [skipBlanks_cons (Text.isBlank_of_isDigit hdigit)]
    split
    · rename_i heq
      rw [(List.cons.inj heq).1] at hdigit
      cases hdigit
    · rename_i heq
      rw [(List.cons.inj heq).1] at hdigit
      cases hdigit
    · simp only [hnumber, Option.map_some, hvalue]
  · rename_i hy
    have hsigned := signed_padded (r := r) 4 y.natAbs
    split
    · rename_i hneg
      have hvalue : -Int.ofNat y.natAbs = y := by show -(y.natAbs : Int) = y; omega
      rw [List.cons_append, year?, skipBlanks_cons rfl]
      simp only [hsigned, Option.map_some, hvalue]
    · rename_i hpos
      have hvalue : Int.ofNat y.natAbs = y := by show (y.natAbs : Int) = y; omega
      rw [List.cons_append, year?, skipBlanks_cons rfl]
      simp only [hsigned, Option.map_some, hvalue]

/-- A decimal fraction of at most nine digits. -/
theorem fraction?_padded {w m : Nat} (hw : 0 < w) (hw' : w ≤ 9) (h : m < Nat.pow 10 w) :
    fraction? ('.' :: (padded w m ++ 'Z' :: r)) = some (m * Nat.pow 10 (9 - w), 'Z' :: r) := by
  have hdigits := isDigits_padded w m
  have hlen := length_padded hw h
  have htake : (padded w m ++ 'Z' :: r).takeWhile Char.isDigit = padded w m := by
    rw [List.takeWhile_append_of_pos hdigits.2]
    exact List.append_nil _
  have hempty : (padded w m).isEmpty = false := by
    obtain ⟨d, ds, he, -⟩ := hdigits.exists_cons
    rw [he]
    rfl
  have hcounted : (padded w m).take 9 = padded w m := List.take_of_length_le (by omega)
  unfold fraction?
  simp only [htake, hempty, hcounted, digitsValue_padded, hlen, Bool.false_eq_true, ↓reduceIte, Option.some.injEq,
    Prod.mk.injEq]
  exact ⟨trivial, List.drop_left' hlen⟩

theorem fraction?_fractionText (h : n < 1000000000) : fraction? (fractionText n ++ 'Z' :: r) = some (n, 'Z' :: r) := by
  unfold fractionText
  split
  · rename_i h0
    rw [h0]
    rfl
  · split
    · rename_i h6
      have hvalue : n / 1000000 * Nat.pow 10 (9 - 3) = n := by show n / 1000000 * 1000000 = n; omega
      have hfits : n / 1000000 < 1000 := by omega
      rw [List.cons_append, fraction?_padded (by decide) (by decide) hfits, hvalue]
    · split
      · rename_i h3
        have hvalue : n / 1000 * Nat.pow 10 (9 - 6) = n := by show n / 1000 * 1000 = n; omega
        have hfits : n / 1000 < 1000000 := by omega
        rw [List.cons_append, fraction?_padded (by decide) (by decide) hfits, hvalue]
      · have hvalue : n * Nat.pow 10 (9 - 9) = n := Nat.mul_one n
        rw [List.cons_append, fraction?_padded (by decide) (by decide) h, hvalue]

end Parts

variable {t : Instant}

theorem minusMinutes_zero (hh : t.hour < 24) (hm : t.minute < 60) : t.minusMinutes 0 = t := by
  have hlow : ¬((t.hour : Int) * 60 + t.minute - 0 < 0) := by omega
  have hhigh : ¬((1440 : Int) ≤ t.hour * 60 + t.minute - 0) := by omega
  have hhour : (((t.hour : Int) * 60 + t.minute - 0) % 1440).toNat / 60 = t.hour := by omega
  have hminute : (((t.hour : Int) * 60 + t.minute - 0) % 1440).toNat % 60 = t.minute := by omega
  simp only [minusMinutes, hlow, hhigh, ↓reduceIte, hhour, hminute]

/-- **The text of an instant reads back.** -/
theorem parse?_text (h : t.isValid = true) : parse? t.text = some t := by
  have hv := h
  simp only [isValid, Bool.and_eq_true, decide_eq_true_eq] at hv
  obtain ⟨⟨⟨⟨⟨⟨⟨⟨⟨-, -⟩, -⟩, hmonth⟩, -⟩, hday⟩, hhour⟩, hminute⟩, hsecond⟩, hnano⟩ := hv
  have hdays : daysIn t.year t.month ≤ 31 := by
    unfold daysIn
    split
    · split <;> decide
    · split <;> decide
  have htext : t.text.toList = yearText t.year ++ '-' :: (padded 2 t.month ++ '-' :: (padded 2 t.day ++ 'T' ::
      (padded 2 t.hour ++ ':' :: (padded 2 t.minute ++ ':' :: (padded 2 t.second ++
        (fractionText t.nanosecond ++ ['Z'])))))) := by
    simp only [text, String.toList_ofList, List.append_assoc, List.cons_append]
  have htwo : ∀ {n : Nat} {r : List Char}, n < 100 → number? 2 (padded 2 n ++ r) = some (n, r) := fun hn =>
    number?_padded (by decide) hn
  have hend : (skipBlanks []).isEmpty = true := rfl
  unfold parse?
  rw [htext]
  refine Option.bind_eq_some_iff.2 ⟨_, year?_yearText t.year, ?_⟩
  refine Option.bind_eq_some_iff.2 ⟨_, separator?_cons rfl, ?_⟩
  refine Option.bind_eq_some_iff.2 ⟨_, htwo (by omega), ?_⟩
  refine Option.bind_eq_some_iff.2 ⟨_, separator?_cons rfl, ?_⟩
  refine Option.bind_eq_some_iff.2 ⟨_, htwo (by omega), ?_⟩
  refine Option.bind_eq_some_iff.2 ⟨_, htwo (by omega), ?_⟩
  refine Option.bind_eq_some_iff.2 ⟨_, separator?_cons rfl, ?_⟩
  refine Option.bind_eq_some_iff.2 ⟨_, htwo (by omega), ?_⟩
  refine Option.bind_eq_some_iff.2 ⟨_, separator?_cons rfl, ?_⟩
  refine Option.bind_eq_some_iff.2 ⟨_, htwo (by omega), ?_⟩
  refine Option.bind_eq_some_iff.2 ⟨_, fraction?_fractionText hnano, ?_⟩
  refine Option.bind_eq_some_iff.2 ⟨(0, []), rfl, (if_pos ⟨h, hend⟩).trans ?_⟩
  exact congrArg some (minusMinutes_zero hhour hminute)

end ScriptRunner.Instant
