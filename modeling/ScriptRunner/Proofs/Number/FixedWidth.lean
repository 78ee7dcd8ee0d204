import ScriptRunner.Number.FixedWidth
import ScriptRunner.Proofs.Document.Outcomes
import ScriptRunner.Proofs.Number.Digits

/-!
# Numbers of fixed width read back

Digits are read up to the limit of a range (`foldDigits_of_isDigits`), so every number of a range is read from its own
text (`IntRange.parseDecimal_toString`), the least and the greatest one included. Nothing else is read for a number
without a sign but digits, with or without a plus sign in front (`IntRange.parse_eq_ok_iff_of_unsigned`).
-/

namespace ScriptRunner

open Decimal

variable {ds : List Char} {c : Char} {n limit : Nat} {fault : IntegerFault}

theorem digitValue?_of_isDigit (h : c.isDigit = true) : digitValue? 10 c = some (c.toNat - '0'.toNat) := by
  simp only [Char.isDigit, Bool.and_eq_true, decide_eq_true_eq] at h
  have hbounds : '0' ≤ c ∧ c ≤ '9' := h
  have hlt : c.toNat - 48 < 10 := by
    have hle : c.toNat ≤ 57 := UInt32.le_iff_toNat_le.1 h.2
    omega
  simp [digitValue?, hbounds, hlt]

/-- Digits whose value is within the limit are read as their value. -/
theorem foldDigits_of_isDigits (hd : ∀ c ∈ ds, c.isDigit = true) (hle : Nat.ofDigitChars 10 ds n ≤ limit) :
    foldDigits 10 limit fault n ds = .ok (Nat.ofDigitChars 10 ds n) := by
  induction ds generalizing n with
  | nil => rfl
  | cons c ds ih =>
    rw [Nat.ofDigitChars_cons] at hle ⊢
    simp only [foldDigits, digitValue?_of_isDigit (hd c List.mem_cons_self)]
    rw [if_pos (Nat.le_trans (le_ofDigitChars _ ds) hle)]
    exact ih (fun c hc => hd c (List.mem_cons_of_mem _ hc)) hle

theorem isDigit_of_digitValue? {d : Nat} (h : digitValue? 10 c = some d) : c.isDigit = true := by
  unfold digitValue? at h
  obtain ⟨hvalue, hlt⟩ := Option.filter_eq_some_iff.1 h
  split at hvalue
  · rename_i hdigit
    exact Bool.and_eq_true_iff.2 ⟨decide_eq_true hdigit.1, decide_eq_true hdigit.2⟩
  · -- The value of a letter is none of a digit.
    split at hvalue <;> simp only [Option.some.injEq, decide_eq_true_eq] at hvalue hlt
    · omega
    · split at hvalue
      · simp only [Option.some.injEq] at hvalue
        omega
      · cases hvalue

theorem foldDigits_eq_ok_iff {v : Nat} (hn : n ≤ limit) :
    foldDigits 10 limit fault n ds = .ok v ↔
      (∀ c ∈ ds, c.isDigit = true) ∧ Nat.ofDigitChars 10 ds n = v ∧ v ≤ limit := by
  refine ⟨fun h => ?_, fun ⟨hd, hv, hle⟩ => by rw [foldDigits_of_isDigits hd (hv ▸ hle), hv]⟩
  induction ds generalizing n with
  | nil =>
    obtain rfl : n = v := Except.ok.inj h
    exact ⟨nofun, rfl, hn⟩
  | cons c ds ih =>
    cases hc : digitValue? 10 c with
    | none => simp [foldDigits, hc] at h
    | some d =>
      have hdigit := isDigit_of_digitValue? hc
      obtain rfl := Option.some.inj ((digitValue?_of_isDigit hdigit).symm.trans hc)
      simp only [foldDigits, hc] at h
      split at h
      · rename_i hle
        obtain ⟨hd, hv, hlimit⟩ := ih hle h
        exact ⟨List.forall_mem_cons.2 ⟨hdigit, hd⟩, by rw [Nat.ofDigitChars_cons]; exact hv, hlimit⟩
      · cases h

namespace IntRange

variable {range : IntRange}

theorem contains_iff {n : Int} : range.contains n = true ↔ range.least ≤ n ∧ n ≤ range.greatest := by
  simp only [contains, Bool.and_eq_true, decide_eq_true_eq]

theorem contains_int64 (n : Int64) : int64.contains n.toInt = true :=
  contains_iff.2 ⟨n.le_toInt, Int.le_of_lt_add_one n.toInt_lt⟩

theorem parse_digits (hd : IsDigits ds) :
    range.parse 10 ds = (foldDigits 10 range.greatest.toNat .tooLarge 0 ds).map Int.ofNat := by
  obtain ⟨d, ds', rfl, hdigit⟩ := hd.exists_cons
  have hplus : d ≠ '+' := by
    rintro rfl
    exact absurd hdigit (by decide)
  have hminus : d ≠ '-' := by
    rintro rfl
    exact absurd hdigit (by decide)
  simp [parse, hplus, hminus]

theorem parse_minus (hd : IsDigits ds) (hs : range.isSigned = true) :
    range.parse 10 ('-' :: ds) =
      (foldDigits 10 (-range.least).toNat .tooSmall 0 ds).map fun n => -Int.ofNat n := by
  obtain ⟨d, ds', rfl, -⟩ := hd.exists_cons
  simp [parse, hs]

theorem parse_plus (hd : IsDigits ds) :
    range.parse 10 ('+' :: ds) = (foldDigits 10 range.greatest.toNat .tooLarge 0 ds).map Int.ofNat := by
  obtain ⟨d, ds', rfl, -⟩ := hd.exists_cons
  simp [parse]

theorem map_foldDigits_eq_ok_iff {i : Int} :
    (foldDigits 10 limit fault 0 ds).map Int.ofNat = .ok i ↔
      (∀ c ∈ ds, c.isDigit = true) ∧ digitsValue ds ≤ limit ∧ i = digitsValue ds := by
  rw [map_eq_ok_iff]
  constructor
  · rintro ⟨v, hv, rfl⟩
    obtain ⟨hd, rfl, hle⟩ := (foldDigits_eq_ok_iff (Nat.zero_le _)).1 hv
    exact ⟨hd, hle, rfl⟩
  · rintro ⟨hd, hle, rfl⟩
    exact ⟨_, (foldDigits_eq_ok_iff (Nat.zero_le _)).2 ⟨hd, rfl, hle⟩, rfl⟩

/-- **What is read for a number without a sign**: digits, behind a plus sign or not. -/
theorem parse_eq_ok_iff_of_unsigned {cs : List Char} {i : Int} (hs : range.isSigned = false) :
    range.parse 10 cs = .ok i ↔
      ∃ sign ds, (sign = [] ∨ sign = ['+']) ∧ cs = sign ++ ds ∧ IsDigits ds ∧
        digitsValue ds ≤ range.greatest.toNat ∧ i = digitsValue ds := by
  constructor
  · intro h
    unfold parse at h
    split at h
    · cases h
    · cases h
    · cases h
    · rename_i ds hne
      obtain ⟨hd, hle, hi⟩ := map_foldDigits_eq_ok_iff.1 h
      exact ⟨['+'], ds, .inr rfl, rfl, ⟨fun he => hne (he ▸ rfl), hd⟩, hle, hi⟩
    · rw [hs] at h
      cases h
    · rename_i hne _ _ _ _
      obtain ⟨hd, hle, hi⟩ := map_foldDigits_eq_ok_iff.1 h
      exact ⟨[], cs, .inl rfl, rfl, ⟨hne, hd⟩, hle, hi⟩
  · rintro ⟨sign, ds, rfl | rfl, rfl, hd, hle, hi⟩
    · rw [parse_digits hd]
      exact map_foldDigits_eq_ok_iff.2 ⟨hd.2, hle, hi⟩
    · rw [List.singleton_append, parse_plus hd]
      exact map_foldDigits_eq_ok_iff.2 ⟨hd.2, hle, hi⟩

/-- **Every number of a range is read from its own text.** -/
theorem parseDecimal_toString {n : Int} (h : range.contains n = true) : range.parseDecimal (toString n) = .ok n := by
  obtain ⟨hleast, hgreatest⟩ := contains_iff.1 h
  have hdigits := isDigits_toDigits n.natAbs
  have hvalue : Nat.ofDigitChars 10 (Nat.toDigits 10 n.natAbs) 0 = n.natAbs := Nat.ofDigitChars_ten_toDigits
  rw [parseDecimal, Int.toString_eq_repr, Int.repr_eq_if]
  by_cases hn : 0 ≤ n
  · have habs : n.toNat = n.natAbs := by omega
    rw [if_pos hn, habs, Nat.repr_eq_ofList_toDigits, String.toList_ofList, parse_digits hdigits,
      foldDigits_of_isDigits hdigits.2 (by omega), hvalue]
    exact congrArg Except.ok (by omega : (n.natAbs : Int) = n)
  · have habs : (-n).toNat = n.natAbs := by omega
    have hsigned : range.isSigned = true := decide_eq_true (by omega)
    rw [if_neg hn, habs, Nat.repr_eq_ofList_toDigits]
    simp only [String.toList_append, String.toList_ofList]
    show range.parse 10 ('-' :: Nat.toDigits 10 n.natAbs) = _
    rw [parse_minus hdigits hsigned, foldDigits_of_isDigits hdigits.2 (by omega), hvalue]
    exact congrArg Except.ok (by omega : -(n.natAbs : Int) = n)

end IntRange

end ScriptRunner
