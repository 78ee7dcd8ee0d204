import Mathlib.Tactic.Common
import ScriptRunner.Number.Binary64

/-!
# Decimal digits

The digits of a number denote it (`Decimal.digitsValue_toDigits`), with or without zeros in front of them, and those of
a positive number start with another digit than zero (`Decimal.exists_cons_toDigits`). The same holds of the shortest
digits of a binary64 number other than zero (`Binary64.shortestDigits_cases`), since nothing near zero rounds to it.
-/

namespace ScriptRunner

namespace Decimal

/-- Digits of which there is at least one. -/
def IsDigits (ds : List Char) : Prop := ds ≠ [] ∧ ∀ c ∈ ds, c.isDigit = true

section IsDigits

variable {ds es r : List Char}

theorem IsDigits.exists_cons (h : IsDigits ds) : ∃ d ds', ds = d :: ds' ∧ d.isDigit = true := by
  obtain ⟨d, ds', rfl⟩ := List.exists_cons_of_ne_nil h.1
  exact ⟨d, ds', rfl, h.2 d List.mem_cons_self⟩

theorem isDigit_zeros {k : Nat} : ∀ c ∈ List.replicate k '0', c.isDigit = true := by
  intro c hc
  rw [List.eq_of_mem_replicate hc]
  rfl

theorem isDigits_zero : IsDigits ['0'] := ⟨nofun, List.forall_mem_singleton.2 rfl⟩

theorem IsDigits.append_left (h : IsDigits ds) (he : ∀ c ∈ es, c.isDigit = true) : IsDigits (ds ++ es) :=
  ⟨List.append_ne_nil_of_left_ne_nil h.1 es, fun c hc => (List.mem_append.1 hc).elim (h.2 c) (he c)⟩

theorem IsDigits.append_right (h : IsDigits ds) (he : ∀ c ∈ es, c.isDigit = true) : IsDigits (es ++ ds) :=
  ⟨List.append_ne_nil_of_right_ne_nil es h.1, fun c hc => (List.mem_append.1 hc).elim (he c) (h.2 c)⟩

/-- Digits in front of a text that starts with none. -/
theorem span_digits (hds : ∀ c ∈ ds, c.isDigit = true) (hr : ∀ c ∈ r.head?, c.isDigit = false) :
    (ds ++ r).takeWhile Char.isDigit = ds ∧ (ds ++ r).dropWhile Char.isDigit = r := by
  rw [List.takeWhile_append_of_pos hds, List.dropWhile_append_of_pos hds]
  cases r with
  | nil => simp
  | cons c r => simp [hr c rfl]

end IsDigits

theorem isDigit_of_mem_toDigits {n : Nat} {c : Char} (h : c ∈ Nat.toDigits 10 n) : c.isDigit = true :=
  Nat.isDigit_of_mem_toDigits (by decide) (by decide) h

theorem isDigits_toDigits (n : Nat) : IsDigits (Nat.toDigits 10 n) :=
  ⟨Nat.toDigits_ne_nil, fun _ => isDigit_of_mem_toDigits⟩

theorem digitsValue_toDigits (n : Nat) : digitsValue (Nat.toDigits 10 n) = n :=
  Nat.ofDigitChars_ten_toDigits

/-- More digits never make a value smaller. -/
theorem le_ofDigitChars (n : Nat) (ds : List Char) : n ≤ Nat.ofDigitChars 10 ds n := by
  induction ds generalizing n with
  | nil => exact Nat.le_refl n
  | cons d ds ih =>
    rw [Nat.ofDigitChars_cons]
    exact Nat.le_trans (by omega) (ih _)

theorem digitsValue_zeros_append (k : Nat) (ds : List Char) :
    digitsValue (List.replicate k '0' ++ ds) = digitsValue ds := by
  induction k with
  | zero => rfl
  | succ k ih => exact ih

theorem digitChar_ne_zero : ∀ n < 10, 0 < n → n.digitChar ≠ '0' := by
  decide

theorem exists_cons_toDigits {n : Nat} (h : 0 < n) : ∃ d ds, Nat.toDigits 10 n = d :: ds ∧ d ≠ '0' := by
  induction n using Nat.strongRecOn with
  | ind n ih =>
    by_cases hn : n < 10
    · rw [Nat.toDigits_of_lt_base hn]
      exact ⟨n.digitChar, [], rfl, digitChar_ne_zero n hn h⟩
    · obtain ⟨d, ds, he, hd⟩ := ih (n / 10) (by omega) (by omega)
      rw [Nat.toDigits_of_base_le (by decide) (by omega), he]
      exact ⟨d, ds ++ [(n % 10).digitChar], rfl, hd⟩

end Decimal

namespace Binary64

variable {x : Binary64} {k : Int} {n count : Nat}

theorem scaled_fst_pos {num den : Nat} {e : Int} (h : 0 < num) : 0 < (scaled num den e).1 := by
  unfold scaled
  split
  · exact h
  · exact Nat.mul_pos h (Nat.pow_pos (by decide))

/-- Zero rounds to no other number. -/
theorem contains_zero (hx : x.significand ≠ 0) : x.roundingInterval.contains 0 k = false := by
  have hlow : 0 < x.roundingInterval.lowest.1 := by
    unfold roundingInterval
    refine scaled_fst_pos ?_
    split <;> omega
  have hmul : ∀ b, 0 < b → 0 < x.roundingInterval.lowest.1 * b := fun b hb => Nat.mul_pos hlow hb
  have hten : 0 < Nat.pow 10 (-k).toNat := Nat.pow_pos (by decide)
  unfold Interval.contains
  by_cases hk : 0 ≤ k
  · have h1 := hmul 1 Nat.one_pos
    simp only [hk, ↓reduceIte, Nat.zero_mul]
    split <;> simp only [Bool.and_eq_false_iff, decide_eq_false_iff_not] <;> omega
  · have h1 := hmul _ hten
    simp only [hk, ↓reduceIte, Nat.zero_mul]
    split <;> simp only [Bool.and_eq_false_iff, decide_eq_false_iff_not] <;> omega

theorem ite_succ_pos {p : Prop} [Decidable p] (h : 0 < n) : 0 < if p then n else n + 1 := by
  split
  · exact h
  · exact Nat.succ_pos n

theorem onGrid?_pos {order : Int} (hx : x.significand ≠ 0) (h : onGrid? x order count = some (n, k)) : 0 < n := by
  have hpos : ∀ low j, x.roundingInterval.contains low j = true → 0 < low := by
    intro low j hlow
    rcases Nat.eq_zero_or_pos low with rfl | hp
    · rw [contains_zero hx] at hlow
      cases hlow
    · exact hp
  unfold onGrid? at h
  simp only at h
  split at h
  · rename_i hlow _
    obtain ⟨rfl, rfl⟩ := Prod.mk.inj (Option.some.inj h)
    exact ite_succ_pos (hpos _ _ hlow)
  · rename_i hlow _
    obtain ⟨rfl, rfl⟩ := Prod.mk.inj (Option.some.inj h)
    exact hpos _ _ hlow
  · obtain ⟨rfl, rfl⟩ := Prod.mk.inj (Option.some.inj h)
    exact Nat.succ_pos _
  · cases h

theorem shortest_cases (hx : x.significand ≠ 0) : x.shortest = (0, 0) ∨ 0 < x.shortest.1 := by
  unfold shortest
  simp only
  cases h : (List.range' 1 17).findSome? (onGrid? x (decimalOrder x.magnitude.1 x.magnitude.2)) with
  | none => exact .inl rfl
  | some r =>
    obtain ⟨count, -, hcount⟩ := List.exists_of_findSome?_eq_some h
    exact .inr (onGrid?_pos hx hcount)

/-- The digits start with another one than zero; none at all are written like those of zero. -/
theorem shortestDigits_cases (hx : x.significand ≠ 0) :
    x.shortestDigits = ([], 0) ∨ ∃ d ds, x.shortestDigits.1 = d :: ds ∧ d ≠ '0' ∧ ∀ c ∈ d :: ds, c.isDigit = true := by
  rcases shortest_cases hx with h0 | hpos
  · left
    simp [shortestDigits, h0]
  · right
    obtain ⟨d, ds, he, hd⟩ := Decimal.exists_cons_toDigits hpos
    have htrim : ∃ ds', ((Nat.toDigits 10 x.shortest.1).reverse.dropWhile (· = '0')).reverse = d :: ds' := by
      rw [he, List.reverse_cons, List.dropWhile_append]
      split
      · exact ⟨[], by simp [hd]⟩
      · exact ⟨_, List.reverse_concat ..⟩
    obtain ⟨ds', htrim⟩ := htrim
    refine ⟨d, ds', htrim, hd, fun c hc => ?_⟩
    rw [← htrim] at hc
    have hmem := (List.dropWhile_sublist (· = '0')).subset (List.mem_reverse.1 hc)
    exact Decimal.isDigit_of_mem_toDigits (List.mem_reverse.1 hmem)

end Binary64

end ScriptRunner
