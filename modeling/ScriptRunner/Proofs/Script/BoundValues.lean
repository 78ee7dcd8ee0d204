import ScriptRunner.Proofs.Number.Overflow
import ScriptRunner.Proofs.Script.Faults
import ScriptRunner.Proofs.Script.NumberLiterals

/-!
# What parameters are bound to

A parameter takes the trimmed value of the node, or its default as declared where that is empty (`Param.text`). It can
be bound unless it is required and not given, or takes a number and its text is none (`Param.Bindable`), and its kind
and its text tell the value (`Param.value`, `Param.bind_eq_ok_iff`). Texts of numbers are those of a grammar, with a
magnitude that does not round to infinity (`isNumber_iff`). So a definition can be bound if all its parameters can, and
the first one that cannot tells the error (`binding_is_exact`).
-/

namespace ScriptRunner.Script

open Decimal

/-! ## Numbers -/

/-- A decimal number: an optional sign, digits with at most one point and at least one digit, and an optional power of
ten. -/
def DecimalNumber : List Char → ℚ → Prop := Signed fun cs v => ∃ digits k, Numeral cs digits k ∧ v = digits * 10 ^ k

theorem decimalNumber_iff {cs : List Char} {v : ℚ} : DecimalNumber cs v ↔ ∃ n, parse? cs = some n ∧ v = n.value := by
  rw [DecimalNumber, signed_iff fun ⟨_, _, h, _⟩ => h.unsigned]
  constructor
  · rintro ⟨-, ⟨digits, k, h, rfl⟩, rfl⟩
    exact ⟨⟨_, digits, k⟩, parse?_eq_some_iff.2 ⟨rfl, h⟩, rfl⟩
  · rintro ⟨n, hn, rfl⟩
    obtain ⟨hsign, h⟩ := parse?_eq_some_iff.1 hn
    rw [hsign]
    exact ⟨n.magnitude, ⟨_, _, h, rfl⟩, rfl⟩

/-- A text is taken for a number if it is one and does not round to infinity. -/
theorem isNumber_iff {s : String} :
    isNumber s = true ↔ ∃ v, DecimalNumber s.toList v ∧ |v| < 2 ^ 1024 - 2 ^ 970 := by
  simp only [isNumber, Option.any_eq_true, isFinite_iff, cast_binary64Limit, decimalNumber_iff]
  constructor
  · rintro ⟨n, hn, hlt⟩
    exact ⟨n.value, ⟨n, hn, rfl⟩, by rwa [abs_value]⟩
  · rintro ⟨-, ⟨n, hn, rfl⟩, hlt⟩
    exact ⟨n, hn, by rwa [abs_value] at hlt⟩

/-- The first of these is past the greatest binary64 number, but still rounds to it. -/
example : isNumber "1.7976931348623158e308" = true ∧ isNumber "1.7976931348623159e308" = false := by decide +kernel

/-! ## Checkboxes -/

/-- A checkbox is on if it has a value that is not blank, a zero or a spelling of `false`. -/
def IsOn (raw : Option String) : Prop :=
  ∃ value, raw = some value ∧ Text.trim value ≠ "" ∧ Text.trim value ≠ "0" ∧
    (Text.trim value).toList.map Char.toLower ≠ "false".toList

theorem isChecked_iff {raw : Option String} : isChecked raw = true ↔ IsOn raw := by
  cases raw with
  | none => simp [isChecked, IsOn]
  | some value => simp [isChecked, IsOn, equalIgnoringCase, and_assoc]

instance : DecidablePred IsOn := fun _ => decidable_of_iff _ isChecked_iff

/-! ## One parameter -/

namespace Param

/-- The text that a parameter takes: the trimmed value, the default as declared where this is empty, or nothing. -/
def text (p : Param) (raw : Option String) : String :=
  let given := (raw.map Text.trim).getD ""
  if given.isEmpty then p.default.getD "" else given

/-- A required parameter but a checkbox has a value that is not blank, and the text of a number parameter is empty or a
decimal number that does not round to infinity. -/
structure Bindable (p : Param) (raw : Option String) : Prop where
  given : p.required = true → p.kind ≠ .checkbox → ∃ value, raw = some value ∧ Text.trim value ≠ ""
  number : p.kind = .number → p.text raw = "" ∨ ∃ v, DecimalNumber (p.text raw).toList v ∧ |v| < 2 ^ 1024 - 2 ^ 970

/-- What a parameter is bound to; nothing stands for zero. -/
def value (p : Param) (raw : Option String) : BoundValue :=
  match p.kind with
  | .checkbox => .bool (IsOn raw)
  | .number => .number (p.numberText raw)
  | .text | .textarea | .select => .text (p.text raw)

/-- The error for a parameter that cannot be bound: it is not given, or its text is no number. -/
def failure (p : Param) (scriptTitle : String) (raw : Option String) : CompileError :=
  if p.required ∧ (raw.map Text.trim).getD "" = "" then .missingRequired p.displayTitle scriptTitle
  else .invalidValue p.displayTitle scriptTitle (p.text raw)

variable {p : Param} {scriptTitle : String} {raw : Option String}

theorem given_eq_empty_iff : (raw.map Text.trim).getD "" = "" ↔ ¬ ∃ value, raw = some value ∧ Text.trim value ≠ "" := by
  cases raw <;> simp

theorem bind_of_checkbox (hk : p.kind = .checkbox) : p.bind scriptTitle raw = .ok (p.value raw) := by
  simp only [Param.bind, value, hk, ParamKind.isBoolean, decide_true, if_true, ← isChecked_iff, Bool.decide_eq_true]

theorem bind_of_missing (hk : p.kind ≠ .checkbox) (h : p.required = true ∧ (raw.map Text.trim).getD "" = "") :
    p.bind scriptTitle raw = .error (.missingRequired p.displayTitle scriptTitle) := by
  simp [Param.bind, ParamKind.isBoolean, hk, h]

/-- A parameter that is not missing fails only if it takes a number and its text is none. -/
theorem bind_of_given (hk : p.kind ≠ .checkbox) (h : ¬ (p.required = true ∧ (raw.map Text.trim).getD "" = "")) :
    p.bind scriptTitle raw =
      if p.kind = .number ∧ p.text raw ≠ "" ∧ isNumber (p.text raw) = false then
        .error (.invalidValue p.displayTitle scriptTitle (p.text raw))
      else .ok (p.value raw) := by
  have hgiven : (((raw.map Text.trim).getD "").isEmpty && p.required) = false := by
    rw [Bool.eq_false_iff, ne_eq, Bool.and_eq_true, String.isEmpty_iff]
    exact fun hboth => h hboth.symm
  rw [value]
  cases hkind : p.kind with
  | checkbox => exact absurd hkind hk
  | number =>
    have hnumberText : p.numberText raw = if (p.text raw).isEmpty then "0" else p.text raw := rfl
    have hbind : p.bind scriptTitle raw =
        if (p.text raw).isEmpty then .ok (.number "0")
        else if isNumber (p.text raw) then .ok (.number (p.text raw))
        else .error (.invalidValue p.displayTitle scriptTitle (p.text raw)) := by
      simp only [Param.bind, hgiven, hkind, Bool.false_eq_true, if_false]
      rfl
    rw [hbind, hnumberText]
    by_cases hs : p.text raw = ""
    · simp [hs]
    · cases hnumber : isNumber (p.text raw) <;> simp [hs]
  | text | textarea | select =>
    have hbind : p.bind scriptTitle raw = .ok (.text (p.text raw)) := by
      simp only [Param.bind, hgiven, hkind, Bool.false_eq_true, if_false]
      rfl
    simp [hbind]

theorem bind_cases (p : Param) (scriptTitle : String) (raw : Option String) :
    (p.Bindable raw ∧ p.bind scriptTitle raw = .ok (p.value raw)) ∨
      (¬ p.Bindable raw ∧ p.bind scriptTitle raw = .error (p.failure scriptTitle raw)) := by
  by_cases hk : p.kind = .checkbox
  · exact .inl ⟨⟨fun _ h => absurd hk h, fun h => by rw [hk] at h; cases h⟩, bind_of_checkbox hk⟩
  · by_cases hmissing : p.required = true ∧ (raw.map Text.trim).getD "" = ""
    · refine .inr ⟨fun h => given_eq_empty_iff.1 hmissing.2 (h.given hmissing.1 hk), ?_⟩
      rw [bind_of_missing hk hmissing, failure, if_pos hmissing]
    · rw [bind_of_given hk hmissing, failure, if_neg hmissing]
      split
      · rename_i hnumber
        refine .inr ⟨fun h => ?_, rfl⟩
        rcases h.number hnumber.1 with hempty | hfinite
        · exact hnumber.2.1 hempty
        · rw [isNumber_iff.2 hfinite] at hnumber
          exact absurd hnumber.2.2 (by simp)
      · rename_i hnumber
        refine .inl ⟨⟨fun hrequired _ => ?_, fun hkind => ?_⟩, rfl⟩
        · by_contra hnone
          exact hmissing ⟨hrequired, given_eq_empty_iff.2 hnone⟩
        · by_cases hempty : p.text raw = ""
          · exact .inl hempty
          · refine .inr (isNumber_iff.1 ?_)
            by_contra hnot
            exact hnumber ⟨hkind, hempty, by simpa using hnot⟩

/-- **What one parameter is bound to.** -/
theorem bind_eq_ok_iff {v : BoundValue} : p.bind scriptTitle raw = .ok v ↔ p.Bindable raw ∧ v = p.value raw := by
  rcases p.bind_cases scriptTitle raw with ⟨h, hbind⟩ | ⟨h, hbind⟩
  · simp [hbind, h, eq_comm]
  · simp [hbind, h]

theorem fault?_eq_some_iff {e : CompileError} :
    p.fault? scriptTitle raw = some e ↔ ¬ p.Bindable raw ∧ e = p.failure scriptTitle raw := by
  rcases p.bind_cases scriptTitle raw with ⟨h, hbind⟩ | ⟨h, hbind⟩
  · simp [fault?, hbind, h]
  · simp [fault?, hbind, h, eq_comm]

theorem fault?_eq_none_iff : p.fault? scriptTitle raw = none ↔ p.Bindable raw := by
  rcases p.bind_cases scriptTitle raw with ⟨h, hbind⟩ | ⟨h, hbind⟩ <;> simp [fault?, hbind, h]

end Param

/-! ## All parameters -/

section
variable {d : Definition} {values : Dict String}

/-- Binding gives every parameter its value if all can be bound. -/
theorem bindParams_eq_ok_iff_bindable {bound : List (String × BoundValue)} : bindParams d values = .ok bound ↔
    (∀ p ∈ d.params, p.Bindable (values.find? p.name)) ∧
      bound = d.params.map fun p => (p.name, p.value (values.find? p.name)) := by
  rw [bindParams_eq_ok_iff]
  simp only [Param.bind_eq_ok_iff]
  induction d.params generalizing bound with
  | nil => simp [List.forall₂_nil_left_iff]
  | cons p ps ih =>
    simp only [List.forall₂_cons_left_iff, ih, List.forall_mem_cons, List.map_cons]
    constructor
    · rintro ⟨⟨name, v⟩, rest, ⟨rfl, hp, rfl⟩, ⟨hps, rfl⟩, rfl⟩
      exact ⟨⟨hp, hps⟩, rfl⟩
    · rintro ⟨⟨hp, hps⟩, rfl⟩
      exact ⟨_, _, ⟨rfl, hp, rfl⟩, ⟨hps, rfl⟩, rfl⟩

/-- Binding fails with the first parameter, in declaration order, that cannot be bound. -/
theorem bindParams_eq_error_iff_first {e : CompileError} : bindParams d values = .error e ↔
    ∃ before p after, d.params = before ++ p :: after ∧ (∀ q ∈ before, q.Bindable (values.find? q.name)) ∧
      ¬ p.Bindable (values.find? p.name) ∧ e = p.failure d.displayTitle (values.find? p.name) := by
  rw [bindParams_eq_error_iff, Definition.fault?, List.findSome?_eq_some_iff]
  simp only [Param.fault?_eq_some_iff, Param.fault?_eq_none_iff]
  constructor
  · rintro ⟨before, p, after, hsplit, hp, hbefore⟩
    exact ⟨before, p, after, hsplit, hbefore, hp⟩
  · rintro ⟨before, p, after, hsplit, hbefore, hp⟩
    exact ⟨before, p, after, hsplit, hp, hbefore⟩

/-- What a node has under other names than those of the parameters plays no part. -/
theorem bindParams_congr {values' : Dict String} (h : ∀ p ∈ d.params, values'.find? p.name = values.find? p.name) :
    bindParams d values' = bindParams d values := by
  unfold bindParams
  generalize d.params = ps at h
  induction ps with
  | nil => rfl
  | cons p ps ih =>
    obtain ⟨hp, hps⟩ := List.forall_mem_cons.1 h
    rw [List.mapM_cons, List.mapM_cons, hp, ih hps]

end

/-- **Binding is exact.** It gives every declared parameter its value, in declaration order, if all of them can be
bound, and else the error of the first one that cannot. What a node has under other names plays no part. The bound for
numbers is the magnitude from which on rounding gives no finite number. -/
theorem binding_is_exact (d : Definition) (values : Dict String) :
    (∀ bound, bindParams d values = .ok bound ↔
      (∀ p ∈ d.params, p.Bindable (values.find? p.name)) ∧
        bound = d.params.map fun p => (p.name, p.value (values.find? p.name))) ∧
    (∀ e, bindParams d values = .error e ↔
      ∃ before p after, d.params = before ++ p :: after ∧ (∀ q ∈ before, q.Bindable (values.find? q.name)) ∧
        ¬ p.Bindable (values.find? p.name) ∧ e = p.failure d.displayTitle (values.find? p.name)) ∧
    (∀ values' : Dict String, (∀ p ∈ d.params, values'.find? p.name = values.find? p.name) →
      bindParams d values' = bindParams d values) ∧
    ∀ v : ℚ, |v| < 2 ^ 1024 - 2 ^ 970 ↔ (Binary64.ofRat? v).isSome = true :=
  ⟨fun _ => bindParams_eq_ok_iff_bindable, fun _ => bindParams_eq_error_iff_first, fun _ => bindParams_congr,
    fun _ => Binary64.isSome_ofRat?_iff.symm⟩

end ScriptRunner.Script
