import Mathlib.Data.List.Forall2
import ScriptRunner.Proofs.Document.Outcomes
import ScriptRunner.Proofs.Script.Filling

/-!
# Bound values

Binding gives every declared parameter its value, in declaration order (`bindParams_eq_ok_iff`). The literal of a bound
value takes up one line (`feed_notMem_literal`): in a text the line feeds are escaped, and a number has none
(`Decimal.isNumeralChar_of_parse?`).
-/

namespace ScriptRunner

/-! ## Numerals -/

namespace Decimal

/-- A character of a decimal number. -/
def isNumeralChar (c : Char) : Bool := c.isDigit || c = '+' || c = '-' || c = '.' || c = 'e' || c = 'E'

variable {cs : List Char}

theorem isNumeralChar_of_splitSign (h : ∀ c ∈ (splitSign cs).2, isNumeralChar c = true) :
    ∀ c ∈ cs, isNumeralChar c = true := by
  unfold splitSign at h
  split at h
  · exact List.forall_mem_cons.2 ⟨by decide, h⟩
  · exact List.forall_mem_cons.2 ⟨by decide, h⟩
  · exact h

theorem isNumeralChar_of_dropWhile (h : ∀ c ∈ cs.dropWhile Char.isDigit, isNumeralChar c = true) :
    ∀ c ∈ cs, isNumeralChar c = true := by
  intro c hc
  rw [← List.takeWhile_append_dropWhile (p := Char.isDigit) (l := cs)] at hc
  rcases List.mem_append.1 hc with hc | hc
  · have hdigit : c.isDigit = true := List.mem_takeWhile_imp hc
    simp [isNumeralChar, hdigit]
  · exact h c hc

theorem isNumeralChar_of_parseExponent? {e : Int} (h : parseExponent? cs = some e) :
    ∀ c ∈ cs, isNumeralChar c = true := by
  match cs, h with
  | [], _ => exact fun c hc => absurd hc List.not_mem_nil
  | a :: r, h =>
    simp only [parseExponent?] at h
    split at h
    · rename_i ha
      split at h
      · rename_i hds
        refine List.forall_mem_cons.2 ⟨by rcases ha with rfl | rfl <;> decide, isNumeralChar_of_splitSign ?_⟩
        intro c hc
        have hdigit : c.isDigit = true := List.all_eq_true.1 hds.2 c hc
        simp [isNumeralChar, hdigit]
      · cases h
    · cases h

/-- A text that is read as a decimal number has no other characters. -/
theorem isNumeralChar_of_parse? {d : Decimal} (h : parse? cs = some d) : ∀ c ∈ cs, isNumeralChar c = true := by
  refine isNumeralChar_of_splitSign (isNumeralChar_of_dropWhile ?_)
  simp only [parse?] at h
  generalize (splitSign cs).2.dropWhile Char.isDigit = r at h
  split at h
  · split at h
    · cases h
    · obtain ⟨e, he, -⟩ := Option.map_eq_some_iff.1 h
      exact List.forall_mem_cons.2 ⟨by decide, isNumeralChar_of_dropWhile (isNumeralChar_of_parseExponent? he)⟩
  · split at h
    · cases h
    · obtain ⟨e, he, -⟩ := Option.map_eq_some_iff.1 h
      exact isNumeralChar_of_parseExponent? he

end Decimal

namespace Script

/-! ## Literals -/

theorem feed_notMem_escape (c : Char) : '\n' ∉ Json.escape c := by
  have hhex : ∀ n, n < 16 → Json.hexDigit n ≠ '\n' := by decide
  unfold Json.escape
  split_ifs with _ _ _ _ hfeed
  any_goals decide
  · have hhigh : c.toNat / 16 < 16 := by omega
    have hlow : c.toNat % 16 < 16 := by omega
    simp [Ne.symm (hhex _ hhigh), Ne.symm (hhex _ hlow)]
  · simpa using Ne.symm hfeed

theorem feed_notMem_text (s : String) : '\n' ∉ (BoundValue.text s).literal.toList := by
  simp [BoundValue.literal, Json.compact, Json.chars, Json.quoted, feed_notMem_escape]

theorem feed_notMem_of_isNumber {s : String} (h : isNumber s = true) : '\n' ∉ s.toList := by
  obtain ⟨n, hn, -⟩ := (Option.any_eq_true _ _).1 h
  intro hm
  have hchar := Decimal.isNumeralChar_of_parse? hn '\n' hm
  revert hchar
  decide

variable {d : Definition} {values : Dict String} {bound : List (String × BoundValue)}

theorem feed_notMem_literal_of_bind {p : Param} {title : String} {raw : Option String} {v : BoundValue}
    (h : p.bind title raw = .ok v) : '\n' ∉ v.literal.toList := by
  unfold Param.bind at h
  split at h
  · cases h
    cases isChecked raw <;> decide
  · extract_lets given at h
    split at h
    · cases h
    · rename_i value _
      clear_value value
      rename_i h
      split at h
      · split at h
        · cases h
          decide
        · split at h
          · rename_i hnumber
            cases h
            exact feed_notMem_of_isNumber hnumber
          · cases h
      · cases h
        exact feed_notMem_text _

/-! ## Lists of bindings -/

theorem mapM_eq_ok_iff {ε α β : Type} {f : α → Except ε β} {xs : List α} {ys : List β} :
    xs.mapM f = .ok ys ↔ List.Forall₂ (fun x y => f x = .ok y) xs ys := by
  induction xs generalizing ys with
  | nil => simp [pure, Except.pure, eq_comm]
  | cons x xs ih =>
    simp only [mapM_cons_eq_ok_iff, ih, List.forall₂_cons_left_iff, @eq_comm _ ys]

theorem bindParams_eq_ok_iff : bindParams d values = .ok bound ↔
    List.Forall₂ (fun p b => b.1 = p.name ∧ p.bind d.displayTitle (values.find? p.name) = .ok b.2) d.params bound := by
  have hone : ∀ (p : Param) (b : String × BoundValue),
      (p.bind d.displayTitle (values.find? p.name)).map (fun v => (p.name, v)) = .ok b ↔
        b.1 = p.name ∧ p.bind d.displayTitle (values.find? p.name) = .ok b.2 := by
    intro p b
    cases p.bind d.displayTitle (values.find? p.name) with
    | error e => simp [Except.map]
    | ok v =>
      obtain ⟨name, w⟩ := b
      simp [Except.map, Prod.mk.injEq, eq_comm]
  rw [bindParams, mapM_eq_ok_iff]
  simp only [hone]

theorem bindParams_names (h : bindParams d values = .ok bound) : bound.map Prod.fst = d.params.map Param.name := by
  have hall := bindParams_eq_ok_iff.1 h
  clear h
  generalize d.params = ps at hall
  induction hall with
  | nil => rfl
  | cons hb _ ih => rw [List.map_cons, List.map_cons, hb.1, ih]

theorem exists_param_of_mem (h : bindParams d values = .ok bound) {b : String × BoundValue} (hb : b ∈ bound) :
    ∃ p ∈ d.params, b.1 = p.name ∧ p.bind d.displayTitle (values.find? p.name) = .ok b.2 := by
  have hall := bindParams_eq_ok_iff.1 h
  clear h
  generalize d.params = ps at hall
  induction hall with
  | nil => exact absurd hb List.not_mem_nil
  | cons hone _ ih =>
    rcases List.mem_cons.1 hb with rfl | hb
    · exact ⟨_, List.mem_cons_self, hone⟩
    · obtain ⟨p, hp, hpb⟩ := ih hb
      exact ⟨p, List.mem_cons_of_mem _ hp, hpb⟩

theorem feed_notMem_literal (h : bindParams d values = .ok bound) {b : String × BoundValue} (hb : b ∈ bound) :
    '\n' ∉ b.2.literal.toList := by
  obtain ⟨p, -, -, hp⟩ := exists_param_of_mem h hb
  exact feed_notMem_literal_of_bind hp

end Script

end ScriptRunner
