import Mathlib.Tactic.Linarith
import Mathlib.Tactic.Ring
import ScriptRunner.Proofs.Number.Magnitude

/-!
# Where rounding overflows

Rounding scales a ratio of natural numbers so that it has 53 bits before the point (`exponentFor_spec`) and takes the
nearest whole number. This gives 54 bits only from half a unit below `2 ^ 53` on (`roundHalfEven_eq_two_mul_iff`). So a
ratio has no nearest binary64 number exactly if it is at least `2 ^ 1024 - 2 ^ 970` (`ofRatio?_eq_none_iff`), and the
same holds of the magnitude of a rational number (`isSome_ofRat?_iff`).
-/

namespace ScriptRunner.Binary64

variable {num den k : Nat} {e : Int}

/-! ## Scaling -/

theorem zpow_toNat (h : 0 ≤ e) : (2 : ℚ) ^ e.toNat = 2 ^ e := by
  rw [← zpow_natCast, Int.toNat_of_nonneg h]

theorem scaled_div (num den : Nat) (e : Int) :
    ((scaled num den e).1 : ℚ) / (scaled num den e).2 = num / den / 2 ^ e := by
  unfold scaled
  split
  · rename_i he
    push_cast [Nat.pow_eq]
    rw [zpow_toNat he, div_div]
  · rename_i he
    push_cast [Nat.pow_eq]
    rw [zpow_toNat (by omega), zpow_neg, mul_div_right_comm, ← div_eq_mul_inv]

theorem scaled_snd_pos (h : 0 < den) : 0 < (scaled num den e).2 := by
  unfold scaled
  split
  · exact Nat.mul_pos h (Nat.pow_pos (by decide))
  · exact h

/-- A scaled ratio is below a whole number exactly if its quotient is. -/
theorem scaled_quotient_lt_iff (h : 0 < den) :
    (scaled num den e).1 / (scaled num den e).2 < k ↔ (num / den : ℚ) < k * 2 ^ e := by
  have hpos : (0 : ℚ) < (scaled num den e).2 := Nat.cast_pos.2 (scaled_snd_pos h)
  have hpow : (0 : ℚ) < 2 ^ e := zpow_pos (by norm_num) e
  rw [Nat.div_lt_iff_lt_mul (scaled_snd_pos h), ← div_lt_iff₀ hpow, ← scaled_div, div_lt_iff₀ hpos]
  norm_cast

/-! ## Exponents -/

/-- A ratio lies between the powers of two that its bits tell. -/
theorem ratio_bounds (hnum : 0 < num) (hden : 0 < den) :
    (2 : ℚ) ^ ((num.log2 : Int) - den.log2 - 1) ≤ num / den ∧
      (num / den : ℚ) < 2 ^ ((num.log2 : Int) - den.log2 + 1) := by
  have hnumLow : (2 : ℚ) ^ (num.log2 : Int) ≤ num := by exact_mod_cast Nat.log2_self_le hnum.ne'
  have hnumHigh : (num : ℚ) < 2 ^ ((num.log2 : Int) + 1) := by exact_mod_cast (Nat.lt_log2_self (n := num))
  have hdenLow : (2 : ℚ) ^ (den.log2 : Int) ≤ den := by exact_mod_cast Nat.log2_self_le hden.ne'
  have hdenHigh : (den : ℚ) < 2 ^ ((den.log2 : Int) + 1) := by exact_mod_cast (Nat.lt_log2_self (n := den))
  have hpos : (0 : ℚ) < den := Nat.cast_pos.2 hden
  constructor
  · rw [sub_sub, zpow_sub₀ two_ne_zero]
    exact div_le_div₀ (Nat.cast_nonneg num) hnumLow hpos hdenHigh.le
  · rw [sub_add_eq_add_sub, zpow_sub₀ two_ne_zero]
    exact div_lt_div₀ hnumHigh hdenLow (zpow_nonneg two_pos.le _) (zpow_pos two_pos _)

/-- The exponent leaves 53 bits before the point, unless that takes less than the least exponent. -/
theorem exists_exponentFor_eq_max (hnum : 0 < num) (hden : 0 < den) :
    ∃ e, (2 : ℚ) ^ (e + 52) ≤ num / den ∧ (num / den : ℚ) < 2 ^ (e + 53) ∧
      exponentFor num den = max e leastExponent := by
  obtain ⟨hlow, hhigh⟩ := ratio_bounds hnum hden
  obtain ⟨guess, hguess⟩ : ∃ guess : Int, guess = num.log2 - den.log2 - 52 := ⟨_, rfl⟩
  have hbelow : (scaled num den guess).1 / (scaled num den guess).2 < Nat.pow 2 52 ↔
      (num / den : ℚ) < 2 ^ (guess + 52) := by
    rw [scaled_quotient_lt_iff hden, zpow_add₀ two_ne_zero, mul_comm]
    norm_num [Nat.pow_eq]
  have hexponent : exponentFor num den =
      max (if (num / den : ℚ) < 2 ^ (guess + 52) then guess - 1 else guess) leastExponent := by
    rw [exponentFor, ← hguess]
    simp only [hbelow]
  by_cases hlt : (num / den : ℚ) < 2 ^ (guess + 52)
  · refine ⟨guess - 1, ?_, ?_, by rw [hexponent, if_pos hlt]⟩
    · rwa [show guess - 1 + 52 = (num.log2 : Int) - den.log2 - 1 by omega]
    · rwa [show guess - 1 + 53 = guess + 52 by omega]
  · refine ⟨guess, not_lt.1 hlt, ?_, by rw [hexponent, if_neg hlt]⟩
    rwa [show guess + 53 = (num.log2 : Int) - den.log2 + 1 by omega]

/-- The scaled ratio has 53 bits before the point, or fewer at the least exponent. -/
theorem exponentFor_spec (hnum : 0 < num) (hden : 0 < den) :
    (num / den : ℚ) < 2 ^ (exponentFor num den + 53) ∧
      (exponentFor num den = leastExponent ∨ (2 : ℚ) ^ (exponentFor num den + 52) ≤ num / den) := by
  obtain ⟨e, hlow, hhigh, he⟩ := exists_exponentFor_eq_max hnum hden
  rw [he]
  refine ⟨hhigh.trans_le (zpow_le_zpow_right₀ one_le_two (by omega)), ?_⟩
  rcases max_choice e leastExponent with hmax | hmax
  · rw [hmax]
    exact .inr hlow
  · exact .inl hmax

/-! ## Overflow -/

/-- From half a unit below an even number on, rounding goes up to it. -/
theorem roundHalfEven_eq_two_mul_iff (hk : 0 < k) (hden : 0 < den) (h : num / den < 2 * k) :
    roundHalfEven num den = 2 * k ↔ (4 * k - 1) * den ≤ 2 * num := by
  have hsplit : den * (num / den) + num % den = num := Nat.div_add_mod num den
  have hrest : num % den < den := Nat.mod_lt num hden
  unfold roundHalfEven
  generalize num / den = q at h hsplit ⊢
  generalize num % den = r at hsplit hrest ⊢
  subst hsplit
  by_cases hq : q + 1 = 2 * k
  · have hodd : q % 2 = 1 := by omega
    have hcoefficient : 4 * k - 1 = 2 * q + 1 := by omega
    have hexpand : (2 * q + 1) * den = 2 * (den * q) + den := by ring
    rw [hcoefficient, hexpand]
    simp only [hodd, and_true]
    split <;> omega
  · -- Further below, not even the next whole number is in reach.
    have hfar : (4 * k - 1) * den > 2 * (den * q + r) := by
      calc 2 * (den * q + r) < (2 * q + 2) * den := by linarith
        _ ≤ (4 * k - 1) * den := Nat.mul_le_mul_right den (by omega)
    refine iff_of_false ?_ (by omega)
    simp only
    split <;> omega

theorem limit_eq : (2 : ℚ) ^ 1024 - 2 ^ 970 = (2 ^ 53 - 1 / 2) * 2 ^ greatestExponent := by
  have hhigh : (2 : ℚ) ^ 1024 = 2 ^ 53 * 2 ^ 971 := by rw [← pow_add]
  have hlow : (2 : ℚ) ^ 971 = 2 ^ 970 * 2 := pow_succ 2 970
  rw [hhigh, greatestExponent, zpow_ofNat, hlow]
  generalize (2 : ℚ) ^ 970 = x
  ring

/-- There is no number past the greatest exponent, nor at it if rounding takes one more bit. -/
theorem ofRatio?_eq_none_iff_exponentFor {negative : Bool} (hnum : 0 < num) :
    ofRatio? negative num den = none ↔ greatestExponent < exponentFor num den ∨
      exponentFor num den = greatestExponent ∧
        roundHalfEven (scaled num den (exponentFor num den)).1 (scaled num den (exponentFor num den)).2 = 2 ^ 53 := by
  rw [ofRatio?, if_neg hnum.ne']
  simp only [Nat.pow_eq]
  by_cases hround :
      roundHalfEven (scaled num den (exponentFor num den)).1 (scaled num den (exponentFor num den)).2 = 2 ^ 53
  · simp only [hround, if_true, and_true, ite_eq_right_iff, reduceCtorEq, imp_false, not_le]
    omega
  · simp only [hround, if_false, and_false, or_false, ite_eq_right_iff, reduceCtorEq, imp_false, not_le]

/-- At the greatest exponent rounding takes one more bit from half a unit below it on. -/
theorem roundHalfEven_scaled_iff (hden : 0 < den) (h : (num / den : ℚ) < 2 ^ (e + 53)) :
    roundHalfEven (scaled num den e).1 (scaled num den e).2 = 2 ^ 53 ↔
      (2 ^ 53 - 1 / 2 : ℚ) * 2 ^ e ≤ num / den := by
  have hpos : (0 : ℚ) < (scaled num den e).2 := Nat.cast_pos.2 (scaled_snd_pos hden)
  have hpow : (0 : ℚ) < 2 ^ e := zpow_pos two_pos e
  have hquotient : (scaled num den e).1 / (scaled num den e).2 < 2 * 2 ^ 52 := by
    rw [scaled_quotient_lt_iff hden]
    rw [zpow_add₀ two_ne_zero, mul_comm] at h
    norm_num at h ⊢
    exact h
  have hhalf := roundHalfEven_eq_two_mul_iff (k := 2 ^ 52) (by decide) (scaled_snd_pos hden) hquotient
  rw [show (2 : Nat) ^ 53 = 2 * 2 ^ 52 by rfl, hhalf, ← le_div_iff₀ hpow, ← scaled_div, le_div_iff₀ hpos,
    ← Nat.cast_le (α := ℚ)]
  norm_num
  constructor <;> intro hle <;> linarith

/-- **Rounding overflows from half a unit below `2 ^ 1024` on**, where the 53 bits of the greatest exponent end. -/
theorem ofRatio?_eq_none_iff {negative : Bool} (hden : 0 < den) :
    ofRatio? negative num den = none ↔ (2 ^ 1024 - 2 ^ 970 : ℚ) ≤ num / den := by
  have hpow : (0 : ℚ) < 2 ^ greatestExponent := zpow_pos two_pos _
  rw [limit_eq]
  rcases Nat.eq_zero_or_pos num with rfl | hnum
  · rw [Nat.cast_zero, zero_div]
    exact iff_of_false nofun (not_le.2 (mul_pos (by norm_num) hpow))
  · obtain ⟨hhigh, hlow⟩ := exponentFor_spec hnum hden
    rw [ofRatio?_eq_none_iff_exponentFor hnum]
    rcases lt_trichotomy (exponentFor num den) greatestExponent with he | he | he
    · refine iff_of_false (by omega) (not_le.2 ?_)
      calc (num / den : ℚ) < 2 ^ (exponentFor num den + 53) := hhigh
        _ ≤ 2 ^ (52 + greatestExponent) := zpow_le_zpow_right₀ one_le_two (by omega)
        _ = 2 ^ 52 * 2 ^ greatestExponent := zpow_add₀ two_ne_zero 52 _
        _ ≤ (2 ^ 53 - 1 / 2) * 2 ^ greatestExponent := mul_le_mul_of_nonneg_right (by norm_num) hpow.le
    · rw [he] at hhigh ⊢
      rw [roundHalfEven_scaled_iff hden hhigh, and_iff_right rfl, or_iff_right (lt_irrefl _)]
    · have hleast : exponentFor num den ≠ leastExponent := by
        rw [greatestExponent] at he
        rw [leastExponent]
        omega
      refine iff_of_true (.inl he) ?_
      calc (2 ^ 53 - 1 / 2) * 2 ^ greatestExponent ≤ 2 ^ 53 * 2 ^ greatestExponent :=
            mul_le_mul_of_nonneg_right (by norm_num) hpow.le
        _ = (2 : ℚ) ^ (53 + greatestExponent) := (zpow_add₀ two_ne_zero 53 _).symm
        _ ≤ 2 ^ (exponentFor num den + 52) := zpow_le_zpow_right₀ one_le_two (by omega)
        _ ≤ num / den := hlow.resolve_left hleast

/-- The binary64 number nearest to a rational one, if it is finite. -/
def ofRat? (v : ℚ) : Option Binary64 := ofRatio? (v < 0) v.num.natAbs v.den

/-- **Finite are the numbers of a magnitude below the limit.** -/
theorem isSome_ofRat?_iff {v : ℚ} : (ofRat? v).isSome = true ↔ |v| < 2 ^ 1024 - 2 ^ 970 := by
  have habs : |v| = (v.num.natAbs : ℚ) / v.den := by
    rw [Rat.abs_def, Rat.divInt_eq_div, Int.cast_natCast, Int.cast_natCast]
  rw [habs, ← not_le, ← ofRatio?_eq_none_iff v.den_pos, Option.isSome_iff_ne_none]
  rfl

end ScriptRunner.Binary64
