import ScriptRunner.Proofs.Json.Tokens

/-!
# The numerals that numbers are written as

A whole number and a binary64 number are each written as one well-formed numeral (`Numeral.chars_ofInt`,
`Numeral.chars_ofFloat`). The first one has the number as its value if it fits 64 bits, signed or unsigned
(`Numeral.value?_ofInt`), and no other whole number is the value of a numeral (`Numeral.fits_of_value?`).
-/

namespace ScriptRunner.Json

open Decimal

/-- A whole number that fits 64 bits, signed or unsigned. -/
def Fits (n : Int) : Prop := -9223372036854775808 ≤ n ∧ n < 18446744073709551616

namespace Numeral

/-! ## Whole numbers -/

section Whole

variable {n m : Nat} {ds : List Char}

def ofInt (n : Int) : Numeral := ⟨n < 0, Nat.toDigits 10 n.natAbs, none, none⟩

theorem wellFormed_ofInt (n : Int) : (ofInt n).WellFormed where
  whole := isDigits_toDigits n.natAbs
  first h := by
    rcases Nat.eq_zero_or_pos n.natAbs with h0 | hpos
    · simp only [ofInt, h0]
      rfl
    · obtain ⟨d, ds, he, hd⟩ := exists_cons_toDigits hpos
      simp only [ofInt, he] at h
      exact absurd (Option.some.inj h) hd
  fraction := nofun
  exponent := nofun

theorem chars_ofInt (n : Int) : (ofInt n).chars = (toString n).toList := by
  rw [Int.toString_eq_repr, Int.repr_eq_if]
  by_cases hn : 0 ≤ n
  · have habs : n.toNat = n.natAbs := by omega
    simp [chars, ofInt, hn, habs, Nat.repr_eq_ofList_toDigits]
  · have habs : (-n).toNat = n.natAbs := by omega
    simp [chars, ofInt, hn, habs, Nat.repr_eq_ofList_toDigits, Int.not_le.1 hn]

/-- Digits whose value fits are gathered without loss. -/
theorem gatherWhole_ofDigitChars (h : Nat.ofDigitChars 10 ds n ≤ gatherLimit) :
    gatherWhole (n, 0) ds = (Nat.ofDigitChars 10 ds n, 0) := by
  induction ds generalizing n with
  | nil => rfl
  | cons d ds ih =>
    rw [Nat.ofDigitChars_cons] at h ⊢
    rw [gatherWhole, if_pos ⟨rfl, Nat.le_trans (le_ofDigitChars _ ds) h⟩]
    exact ih h

theorem gatherWhole_toDigits (h : n ≤ gatherLimit) : gatherWhole (0, 0) (Nat.toDigits 10 n) = (n, 0) := by
  have hvalue : Nat.ofDigitChars 10 (Nat.toDigits 10 n) 0 = n := Nat.ofDigitChars_ten_toDigits
  rw [gatherWhole_ofDigitChars (by rwa [hvalue]), hvalue]

theorem gatherWhole_le (h : n ≤ gatherLimit) (ds : List Char) : (gatherWhole (n, m) ds).1 ≤ gatherLimit := by
  induction ds generalizing n m with
  | nil => exact h
  | cons d ds ih =>
    rw [gatherWhole]
    split
    · rename_i hfits
      exact ih hfits.2
    · exact h

theorem value?_ofInt {n : Int} (h : Fits n) : (ofInt n).value? = some (.int n) := by
  obtain ⟨hlow, hhigh⟩ := h
  have hlimit : gatherLimit = 2 ^ 64 - 1 := rfl
  have hgather := gatherWhole_toDigits (n := n.natAbs) (by omega)
  unfold value?
  simp only [ofInt, hgather, and_self, ↓reduceIte]
  by_cases hn : n < 0
  · have habs : -(n.natAbs : Int) = n := by omega
    have hsigned : 0 < n.natAbs ∧ n.natAbs ≤ Nat.pow 2 63 := ⟨by omega, by show n.natAbs ≤ 2 ^ 63; omega⟩
    simp only [hn, habs, hsigned, decide_true, Bool.not_true, Bool.false_eq_true, and_self, ↓reduceIte]
  · have habs : (n.natAbs : Int) = n := by omega
    simp only [hn, habs, decide_false, Bool.not_false, ↓reduceIte]

theorem fits_of_value? {x : Numeral} {n : Int} (h : x.value? = some (.int n)) : Fits n := by
  have hle := gatherWhole_le (n := 0) (m := 0) (Nat.zero_le _) x.whole
  have hlimit : gatherLimit = 2 ^ 64 - 1 := rfl
  unfold value? at h
  simp only at h
  split at h
  · split at h
    · obtain rfl := Json.int.inj (Option.some.inj h)
      exact ⟨by omega, by omega⟩
    · split at h
      · rename_i hsigned
        have hsigned' : (gatherWhole (0, 0) x.whole).1 ≤ 2 ^ 63 := hsigned.2
        obtain rfl := Json.int.inj (Option.some.inj h)
        exact ⟨by omega, by omega⟩
      · obtain ⟨_, -, h⟩ := Option.map_eq_some_iff.1 h
        cases h
  · obtain ⟨_, -, h⟩ := Option.bind_eq_some_iff.1 h
    obtain ⟨_, -, h⟩ := Option.map_eq_some_iff.1 h
    cases h

end Whole

/-! ## Binary64 numbers -/

section Floats

variable {x : Binary64} {ds : List Char}

/-- The parts of `Binary64.positional`. -/
def positional (negative : Bool) (ds : List Char) (point : Int) : Numeral :=
  if point ≤ 0 then ⟨negative, ['0'], some (List.replicate (-point).toNat '0' ++ ds), none⟩
  else if ds.length ≤ point.toNat then
    ⟨negative, ds ++ List.replicate (point.toNat - ds.length) '0', some ['0'], none⟩
  else ⟨negative, ds.take point.toNat, some (ds.drop point.toNat), none⟩

/-- The parts of `Binary64.scientific`. -/
def scientific (negative : Bool) (ds : List Char) (order : Int) : Numeral :=
  ⟨negative, ds.take 1, if ds.length ≤ 1 then none else some (ds.drop 1),
    some (order < 0, Nat.toDigits 10 order.natAbs)⟩

def ofFloat (x : Binary64) : Numeral :=
  if x.significand = 0 then ⟨x.negative, ['0'], some ['0'], none⟩
  else if -5 ≤ x.shortestDigits.2 ∧ x.shortestDigits.2 < 16 then
    positional x.negative x.shortestDigits.1 (x.shortestDigits.2 + 1)
  else scientific x.negative x.shortestDigits.1 x.shortestDigits.2

theorem chars_positional (negative : Bool) (ds : List Char) (point : Int) :
    (positional negative ds point).chars =
      (if negative then ['-'] else []) ++ Binary64.positional ds point := by
  unfold positional Binary64.positional
  split
  · simp [chars]
  · simp only
    split <;> simp [chars]

theorem chars_scientific (negative : Bool) (ds : List Char) (order : Int) :
    (scientific negative ds order).chars =
      (if negative then ['-'] else []) ++ Binary64.scientific ds order := by
  unfold scientific Binary64.scientific
  split <;> simp [chars]

theorem chars_ofFloat (x : Binary64) : (ofFloat x).chars = x.text.toList := by
  unfold ofFloat Binary64.text
  simp only [String.toList_ofList]
  split
  · simp [chars]
  · split
    · exact chars_positional ..
    · exact chars_scientific ..

/-- Digits that start with another one than zero. -/
structure Leading (ds : List Char) : Prop where
  isDigits : IsDigits ds
  head : ds.head? ≠ some '0'

theorem wellFormed_positional {negative : Bool} {point : Int} (h : Leading ds) :
    (positional negative ds point).WellFormed := by
  obtain ⟨d, ds, rfl, -⟩ := h.isDigits.exists_cons
  have hd : d ≠ '0' := fun hd => h.head (hd ▸ rfl)
  unfold positional
  split
  · refine ⟨isDigits_zero, fun _ => rfl, ?_, nofun⟩
    rintro _ ⟨⟩
    exact h.isDigits.append_right isDigit_zeros
  · rename_i hpoint
    obtain ⟨n, hn⟩ : ∃ n, point.toNat = n + 1 := ⟨point.toNat - 1, by omega⟩
    split
    · refine ⟨h.isDigits.append_left isDigit_zeros, fun h0 => absurd (Option.some.inj h0) hd, ?_, nofun⟩
      rintro _ ⟨⟩
      exact isDigits_zero
    · rename_i hlen
      refine ⟨⟨by simp [hn], fun c hc => h.isDigits.2 c (List.mem_of_mem_take hc)⟩, fun h0 => ?_, ?_, nofun⟩
      · rw [hn] at h0
        exact absurd (Option.some.inj h0) hd
      · rintro _ ⟨⟩
        refine ⟨fun hnil => hlen (List.drop_eq_nil_iff.1 hnil), fun c hc => h.isDigits.2 c (List.mem_of_mem_drop hc)⟩

theorem wellFormed_scientific {negative : Bool} {order : Int} (h : Leading ds) :
    (scientific negative ds order).WellFormed := by
  obtain ⟨d, ds, rfl, hdigit⟩ := h.isDigits.exists_cons
  have hd : d ≠ '0' := fun hd => h.head (hd ▸ rfl)
  refine ⟨⟨nofun, by simpa [scientific] using hdigit⟩, fun h0 => absurd (Option.some.inj h0) hd, ?_, ?_⟩
  · intro es he
    simp only [scientific] at he
    split at he
    · cases he
    · rename_i hlen
      obtain rfl := Option.some.inj he
      exact ⟨fun hnil => hlen (by simpa using hnil), fun c hc => h.isDigits.2 c (List.mem_cons_of_mem d hc)⟩
  · rintro _ ⟨⟩
    exact isDigits_toDigits _

theorem wellFormed_ofFloat (x : Binary64) : (ofFloat x).WellFormed := by
  unfold ofFloat
  split
  · refine ⟨isDigits_zero, fun _ => rfl, ?_, nofun⟩
    rintro _ ⟨⟩
    exact isDigits_zero
  · rename_i hx
    rcases Binary64.shortestDigits_cases hx with h0 | ⟨d, ds, he, hd, hdigits⟩
    · rw [h0]
      refine ⟨isDigits_zero, fun _ => rfl, ?_, nofun⟩
      rintro _ ⟨⟩
      exact isDigits_zero
    · have hlead : Leading x.shortestDigits.1 := by
        rw [he]
        exact ⟨⟨nofun, hdigits⟩, fun h => hd (Option.some.inj h)⟩
      split
      · exact wellFormed_positional hlead
      · exact wellFormed_scientific hlead

end Floats

end Numeral

end ScriptRunner.Json
