import Mathlib.Algebra.Order.Field.Power
import Mathlib.Algebra.Order.Field.Rat
import Mathlib.Data.List.TakeWhile
import Mathlib.Tactic.FieldSimp
import Mathlib.Tactic.Positivity
import ScriptRunner.Proofs.Number.Digits

/-!
# What decimal numerals denote

A text is read as a decimal number exactly if it is a numeral after an optional sign (`Decimal.parse?_eq_some_iff`). A
decimal number denotes a rational one, and the test that spares powers of ten tells exactly those whose magnitude lies
below `binary64Limit` (`Decimal.isFinite_iff`).
-/

namespace ScriptRunner.Decimal

variable {cs ds r : List Char} {n : Decimal} {k : Int}

/-! ## Signs -/

/-- A text that starts with no sign. -/
def Unsigned (cs : List Char) : Prop := cs.head? ≠ some '+' ∧ cs.head? ≠ some '-'

theorem splitSign_of_unsigned (h : Unsigned cs) : splitSign cs = (false, cs) := by
  unfold splitSign
  split
  · exact absurd rfl h.1
  · exact absurd rfl h.2
  · rfl

@[simp] theorem splitSign_plus (r : List Char) : splitSign ('+' :: r) = (false, r) := rfl

@[simp] theorem splitSign_minus (r : List Char) : splitSign ('-' :: r) = (true, r) := rfl

theorem sign_cases (cs : List Char) : (∃ r, cs = '+' :: r) ∨ (∃ r, cs = '-' :: r) ∨ Unsigned cs := by
  by_cases hplus : cs.head? = some '+'
  · exact .inl (List.head?_eq_some_iff.1 hplus)
  · by_cases hminus : cs.head? = some '-'
    · exact .inr (.inl (List.head?_eq_some_iff.1 hminus))
    · exact .inr (.inr ⟨hplus, hminus⟩)

theorem unsigned_cons {c : Char} (h : c.isDigit = true ∨ c = '.') : Unsigned (c :: r) := by
  constructor
  · intro he
    obtain rfl := Option.some.inj he
    revert h
    decide
  · intro he
    obtain rfl := Option.some.inj he
    revert h
    decide

theorem unsigned_digits (h : IsDigits ds) (r : List Char) : Unsigned (ds ++ r) := by
  obtain ⟨d, ds', rfl, hd⟩ := h.exists_cons
  exact unsigned_cons (.inl hd)

/-! ## Numerals -/

/-- The power of ten at the end of a numeral: nothing, or a letter `e`, an optional sign and digits. -/
inductive Power : List Char → Int → Prop
  | none : Power [] 0
  | plain {e ds} (he : e = 'e' ∨ e = 'E') (hds : IsDigits ds) : Power (e :: ds) (digitsValue ds)
  | plus {e ds} (he : e = 'e' ∨ e = 'E') (hds : IsDigits ds) : Power (e :: '+' :: ds) (digitsValue ds)
  | minus {e ds} (he : e = 'e' ∨ e = 'E') (hds : IsDigits ds) : Power (e :: '-' :: ds) (-digitsValue ds)

/-- A numeral without a sign, with the value of its digits and the power of ten that they stand for. -/
inductive Numeral : List Char → Nat → Int → Prop
  | whole {ws tail k} (hws : IsDigits ws) (htail : Power tail k) : Numeral (ws ++ tail) (digitsValue ws) k
  | pointed {ws fs tail k} (hds : IsDigits (ws ++ fs)) (htail : Power tail k) :
      Numeral (ws ++ '.' :: (fs ++ tail)) (digitsValue (ws ++ fs)) (k - fs.length)

theorem Power.head_eq (h : Power cs k) : ∀ c ∈ cs.head?, c = 'e' ∨ c = 'E' := by
  cases h with
  | none => exact nofun
  | plain he | plus he | minus he => simpa using he

theorem Power.not_isDigit (h : Power cs k) : ∀ c ∈ cs.head?, c.isDigit = false := by
  intro c hc
  rcases h.head_eq c hc with rfl | rfl <;> rfl

theorem isDigits_iff_all : IsDigits ds ↔ ds ≠ [] ∧ ds.all Char.isDigit = true := by
  rw [List.all_eq_true]
  rfl

theorem power_of_parseExponent? (h : parseExponent? cs = some k) : Power cs k := by
  cases cs with
  | nil =>
    cases h
    exact .none
  | cons e r =>
    rw [parseExponent?] at h
    split at h
    · rename_i he
      rcases sign_cases r with ⟨ds, rfl⟩ | ⟨ds, rfl⟩ | hr
      · rw [splitSign_plus] at h
        obtain ⟨hds, h⟩ := Option.ite_none_right_eq_some.1 h
        cases h
        exact .plus he (isDigits_iff_all.2 hds)
      · rw [splitSign_minus] at h
        obtain ⟨hds, h⟩ := Option.ite_none_right_eq_some.1 h
        cases h
        exact .minus he (isDigits_iff_all.2 hds)
      · rw [splitSign_of_unsigned hr] at h
        obtain ⟨hds, h⟩ := Option.ite_none_right_eq_some.1 h
        cases h
        exact .plain he (isDigits_iff_all.2 hds)
    · cases h

theorem parseExponent?_of_power (h : Power cs k) : parseExponent? cs = some k := by
  cases h with
  | none => rfl
  | plain he hds =>
    have hr := splitSign_of_unsigned (List.append_nil _ ▸ unsigned_digits hds [])
    simp only [parseExponent?, he, hr, ← isDigits_iff_all, hds, ↓reduceIte]
    rfl
  | plus he hds =>
    simp only [parseExponent?, he, splitSign_plus, ← isDigits_iff_all, hds, ↓reduceIte]
    rfl
  | minus he hds =>
    simp only [parseExponent?, he, splitSign_minus, ← isDigits_iff_all, hds, ↓reduceIte]
    rfl

/-! ## Reading numerals -/

theorem isDigit_of_mem_takeWhile (cs : List Char) : ∀ c ∈ cs.takeWhile Char.isDigit, c.isDigit = true :=
  fun _ => List.mem_takeWhile_imp

theorem numeral_of_parse? (h : parse? cs = some n) :
    (splitSign cs).1 = n.negative ∧ Numeral (splitSign cs).2 n.digits n.exponent := by
  simp only [parse?] at h
  rw [← List.takeWhile_append_dropWhile (p := Char.isDigit) (l := (splitSign cs).2)]
  have hws := isDigit_of_mem_takeWhile (splitSign cs).2
  generalize (splitSign cs).2.takeWhile Char.isDigit = ws at h hws
  generalize (splitSign cs).2.dropWhile Char.isDigit = r at h
  split at h
  · rename_i r'
    rw [← List.takeWhile_append_dropWhile (p := Char.isDigit) (l := r')]
    have hfs := isDigit_of_mem_takeWhile r'
    generalize r'.takeWhile Char.isDigit = fs at h hfs
    generalize r'.dropWhile Char.isDigit = tail at h
    split at h
    · cases h
    · rename_i hne
      obtain ⟨k, hk, rfl⟩ := Option.map_eq_some_iff.1 h
      have hds : IsDigits (ws ++ fs) :=
        ⟨fun he => hne (List.append_eq_nil_iff.1 he), fun c hc => (List.mem_append.1 hc).elim (hws c) (hfs c)⟩
      exact ⟨rfl, .pointed hds (power_of_parseExponent? hk)⟩
  · split at h
    · cases h
    · rename_i hne
      obtain ⟨k, hk, rfl⟩ := Option.map_eq_some_iff.1 h
      have hds : IsDigits ws := ⟨fun he => hne ⟨he, rfl⟩, hws⟩
      rw [List.append_nil]
      exact ⟨rfl, by simpa using Numeral.whole hds (power_of_parseExponent? hk)⟩

theorem parse?_of_numeral (h : Numeral (splitSign cs).2 n.digits n.exponent) (hn : (splitSign cs).1 = n.negative) :
    parse? cs = some n := by
  obtain ⟨negative, digits, exponent⟩ := n
  simp only at h hn
  simp only [parse?, hn]
  generalize (splitSign cs).2 = r at h
  cases h with
  | whole hws htail =>
    obtain ⟨htake, hdrop⟩ := span_digits hws.2 htail.not_isDigit
    rw [htake, hdrop]
    split
    · exact absurd (htail.head_eq '.' rfl) (by decide)
    · simp [hws.1, parseExponent?_of_power htail]
  | @pointed ws fs tail k hds htail =>
    have hws : ∀ c ∈ ws, c.isDigit = true := fun c hc => hds.2 c (List.mem_append_left fs hc)
    have hfs : ∀ c ∈ fs, c.isDigit = true := fun c hc => hds.2 c (List.mem_append_right ws hc)
    obtain ⟨htake, hdrop⟩ := span_digits (r := '.' :: (fs ++ tail)) hws (by simp)
    obtain ⟨htake', hdrop'⟩ := span_digits hfs htail.not_isDigit
    have hne : ¬ (ws = [] ∧ fs = []) := fun he => hds.1 (List.append_eq_nil_iff.2 he)
    simp only [htake, hdrop, htake', hdrop', hne, parseExponent?_of_power htail, ↓reduceIte, Option.map_some]

/-- **A text is read as a decimal number if it is a numeral after an optional sign.** -/
theorem parse?_eq_some_iff :
    parse? cs = some n ↔ (splitSign cs).1 = n.negative ∧ Numeral (splitSign cs).2 n.digits n.exponent :=
  ⟨numeral_of_parse?, fun h => parse?_of_numeral h.2 h.1⟩

theorem Numeral.unsigned {d : Nat} (h : Numeral cs d k) : Unsigned cs := by
  cases h with
  | whole hws => exact unsigned_digits hws _
  | @pointed ws fs _ _ hds =>
    cases ws with
    | nil => exact unsigned_cons (.inr rfl)
    | cons c ws => exact unsigned_cons (.inl (hds.2 c List.mem_cons_self))

/-- A numeral is read in one way. -/
theorem Numeral.unique {d d' : Nat} {k' : Int} (h : Numeral cs d k) (h' : Numeral cs d' k') : d = d' ∧ k = k' := by
  have hsplit := splitSign_of_unsigned h.unsigned
  have hread : parse? cs = some ⟨false, d, k⟩ := parse?_of_numeral (by rwa [hsplit]) (by rw [hsplit])
  have hread' : parse? cs = some ⟨false, d', k'⟩ := parse?_of_numeral (by rwa [hsplit]) (by rw [hsplit])
  cases hread.symm.trans hread'
  exact ⟨rfl, rfl⟩

/-! ## Magnitudes -/

/-- The number without its sign. -/
def magnitude (n : Decimal) : ℚ := n.digits * 10 ^ n.exponent

/-- The number, but for the sign of zero. -/
def value (n : Decimal) : ℚ := if n.negative then -n.magnitude else n.magnitude

theorem abs_value (n : Decimal) : |n.value| = n.magnitude := by
  have hmagnitude : 0 ≤ n.magnitude := mul_nonneg (Nat.cast_nonneg _) (zpow_nonneg (by norm_num) _)
  unfold value
  split
  · rw [abs_neg, abs_of_nonneg hmagnitude]
  · rw [abs_of_nonneg hmagnitude]

theorem digitsValue_append (ds es : List Char) :
    digitsValue (ds ++ es) = 10 ^ es.length * digitsValue ds + digitsValue es :=
  (Nat.ofDigitChars_append 0).trans Nat.ofDigitChars_eq_ofDigitChars_zero

/-- The digits after a point count for as many powers of ten less. -/
theorem digitsValue_pointed (ws fs : List Char) (k : Int) : (digitsValue (ws ++ fs) : ℚ) * 10 ^ (k - fs.length) =
    (digitsValue ws + digitsValue fs / 10 ^ fs.length) * 10 ^ k := by
  rw [digitsValue_append, zpow_sub₀ (by norm_num), zpow_natCast]
  push_cast
  field_simp

theorem magnitude_of_nonneg (h : 0 ≤ n.exponent) :
    n.magnitude = ((n.digits * Nat.pow 10 n.exponent.toNat : Nat) : ℚ) := by
  obtain ⟨k, hk⟩ := Int.eq_ofNat_of_zero_le h
  rw [magnitude, hk, Int.toNat_natCast, zpow_natCast]
  push_cast [Nat.pow_eq]
  rfl

theorem magnitude_lt_iff_of_neg (h : n.exponent < 0) (m : Nat) :
    n.magnitude < m ↔ n.digits < m * Nat.pow 10 (-n.exponent).toNat := by
  obtain ⟨k, hk⟩ := Int.exists_eq_neg_ofNat h.le
  have hpow : (0 : ℚ) < 10 ^ k := by positivity
  rw [magnitude, hk, Int.neg_neg, Int.toNat_natCast, zpow_neg, zpow_natCast, ← div_eq_mul_inv, div_lt_iff₀ hpow]
  norm_cast

/-- From here on powers of ten are past the limit. -/
theorem binary64Limit_le {k : Nat} (h : 309 ≤ k) : binary64Limit ≤ 10 ^ k := by
  have hleast : binary64Limit ≤ 10 ^ 309 := by decide +kernel
  have hmono : ∀ j ≤ k, 10 ^ j ≤ 10 ^ k := fun j hj => Nat.pow_le_pow_right (by decide) hj
  exact hleast.trans (hmono 309 h)

theorem binary64Limit_pos : 0 < binary64Limit := by
  decide +kernel

theorem cast_binary64Limit : (binary64Limit : ℚ) = 2 ^ 1024 - 2 ^ 970 := by
  decide +kernel

/-- A number with at most as many bits as its digits after the point take up is below 1. -/
theorem lt_ten_pow_of_log2 {d k : Nat} (h : d.log2 + 1 ≤ 3 * k) : d < 10 ^ k :=
  calc d < 2 ^ (d.log2 + 1) := Nat.lt_log2_self
    _ ≤ 2 ^ (3 * k) := Nat.pow_le_pow_right (by decide) h
    _ = 8 ^ k := Nat.pow_mul 2 3 k
    _ ≤ 10 ^ k := Nat.pow_le_pow_left (by decide) k

/-- **Numbers are finite if they lie below the least magnitude that rounds to infinity.** -/
theorem isFinite_iff : n.isFinite = true ↔ n.magnitude < binary64Limit := by
  unfold isFinite
  split
  · rename_i hzero
    rw [magnitude, hzero, Nat.cast_zero, zero_mul]
    exact iff_of_true rfl (Nat.cast_pos.2 binary64Limit_pos)
  · rename_i hdigits
    split
    · rename_i hexp
      rw [magnitude_of_nonneg hexp, Nat.cast_lt, Bool.and_eq_true, decide_eq_true_eq, decide_eq_true_eq]
      refine and_iff_right_of_imp fun hlt => ?_
      by_contra hlarge
      have hpow : binary64Limit ≤ 10 ^ n.exponent.toNat := binary64Limit_le (by omega)
      have hdigit : 10 ^ n.exponent.toNat ≤ n.digits * 10 ^ n.exponent.toNat :=
        Nat.le_mul_of_pos_left _ (Nat.pos_of_ne_zero hdigits)
      exact Nat.lt_irrefl _ (Nat.lt_of_lt_of_le hlt (hpow.trans hdigit))
    · rename_i hexp
      rw [magnitude_lt_iff_of_neg (Int.not_le.1 hexp)]
      simp only [Bool.or_eq_true, decide_eq_true_eq]
      refine or_iff_right_of_imp fun hbits => ?_
      have h1 := lt_ten_pow_of_log2 hbits
      have h2 := Nat.le_mul_of_pos_left (10 ^ (-n.exponent).toNat) binary64Limit_pos
      exact Nat.lt_of_lt_of_le h1 h2

end ScriptRunner.Decimal
