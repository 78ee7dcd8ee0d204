import ScriptRunner.Proofs.Script.Identifiers
import ScriptRunner.Proofs.Script.Signatures

/-!
# Parameters with one identifier

A parameter is named by the identifier of its own name, without a look at the other parameters. Two names give one
identifier exactly if they are confusable (`identifier_eq_identifier_iff`): they agree once blanks, case and the characters
that identifiers do not have are put aside, or one of them is what the other is adorned to. In a body a name refers to the
last parameter of this name, so a bound value is out of reach exactly if a later parameter is confusable with its own, and
the parameters of a function are distinct exactly if no two are confusable (`parameters_stay_distinct_iff`).
-/

namespace ScriptRunner.Script

/-! ## Confusable names -/

/-- A blank name becomes `script`, a digit in front gets an underscore before it and a reserved word one after it. -/
inductive Adorned : List Char → List Char → Prop
  | blank : Adorned [] "script".toList
  | digit {c : Char} {r : List Char} : c.isDigit = true → Adorned (c :: r) ('_' :: c :: r)
  | reserved {cs : List Char} : String.ofList cs ∈ reservedWords → Adorned cs (cs ++ ['_'])

/-- The names agree but for blanks at their ends, case and characters that identifiers do not have, or one is what the
other is adorned to. -/
def Confusable (a b : String) : Prop :=
  nameChars a = nameChars b ∨ Adorned (nameChars a) (nameChars b) ∨ Adorned (nameChars b) (nameChars a)

namespace Adorned

variable {cs ds es : List Char}

/-- A reserved word starts with a letter, and no underscore ends it. -/
theorem exists_cons_of_reserved (h : String.ofList cs ∈ reservedWords) :
    ∃ c r, cs = c :: r ∧ c.isDigit = false ∧ c ≠ '_' ∧ '_' ∉ cs := by
  have hwords : ∀ w ∈ reservedWords, w.toList.head?.any (fun c => !c.isDigit && c != '_') = true ∧ '_' ∉ w.toList := by
    decide
  obtain ⟨hhead, hnone⟩ := hwords _ h
  rw [String.toList_ofList] at hhead hnone
  cases cs with
  | nil => cases hhead
  | cons c r =>
    have hc : c.isDigit = false ∧ c ≠ '_' := by simpa using hhead
    exact ⟨c, r, rfl, hc.1, hc.2, hnone⟩

/-- What a name is adorned to starts with no digit and is not reserved. -/
theorem exists_cons (h : Adorned cs ds) :
    (∃ c r, ds = c :: r ∧ c.isDigit = false) ∧ String.ofList ds ∉ reservedWords := by
  cases h with
  | blank => exact ⟨⟨'s', _, rfl, by decide⟩, by decide⟩
  | digit hc => exact ⟨⟨'_', _, rfl, by decide⟩, notMem_reservedWords (by simp)⟩
  | reserved hcs =>
    obtain ⟨c, r, rfl, hdigit, -⟩ := exists_cons_of_reserved hcs
    exact ⟨⟨c, r ++ ['_'], rfl, hdigit⟩, notMem_reservedWords (by simp)⟩

/-- What a name is adorned to is not adorned again. -/
theorem not_adorned (h : Adorned cs ds) : ¬ Adorned ds es := by
  obtain ⟨⟨c, r, rfl, hdigit⟩, hfree⟩ := h.exists_cons
  intro h'
  cases h' with
  | digit hc =>
    rw [hdigit] at hc
    cases hc
  | reserved hds => exact hfree hds

theorem not_reserved_of_isDigit {c : Char} {r : List Char} (hc : c.isDigit = true) :
    String.ofList (c :: r) ∉ reservedWords := by
  intro h
  obtain ⟨c', r', he, hdigit, -⟩ := exists_cons_of_reserved h
  rw [(List.cons.inj he).1, hdigit] at hc
  cases hc

theorem functional (h : Adorned cs ds) (h' : Adorned cs es) : ds = es := by
  have hempty : String.ofList [] ∉ reservedWords := by decide
  cases h with
  | blank =>
    cases h' with
    | blank => rfl
    | reserved hcs => exact absurd hcs hempty
  | digit hc =>
    cases h' with
    | digit _ => rfl
    | reserved hcs => exact absurd hcs (not_reserved_of_isDigit hc)
  | reserved hcs =>
    cases h' with
    | blank => exact absurd hcs hempty
    | digit hc => exact absurd hcs (not_reserved_of_isDigit hc)
    | reserved _ => rfl

theorem eq_cases (h : Adorned cs es) :
    (cs = [] ∧ es = "script".toList) ∨ es = '_' :: cs ∨ (String.ofList cs ∈ reservedWords ∧ es = cs ++ ['_']) := by
  cases h with
  | blank => exact .inl ⟨rfl, rfl⟩
  | digit _ => exact .inr (.inl rfl)
  | reserved hcs => exact .inr (.inr ⟨hcs, rfl⟩)

/-- The first and the last character tell how a name was adorned. -/
theorem injective (h : Adorned cs es) (h' : Adorned ds es) : cs = ds := by
  have hscript : ∀ cs : List Char, "script".toList ≠ '_' :: cs ∧ "script".toList ≠ cs ++ ['_'] := by
    intro cs
    refine ⟨by simp, fun he => ?_⟩
    have hlast := congrArg List.getLast? he
    simp at hlast
  have hword : ∀ {cs ds : List Char}, String.ofList cs ∈ reservedWords → '_' :: ds ≠ cs ++ ['_'] := by
    rintro cs ds hcs he
    obtain ⟨c, r, rfl, -, hc, -⟩ := exists_cons_of_reserved hcs
    exact hc (List.cons.inj he).1.symm
  rcases h.eq_cases with ⟨rfl, he⟩ | he | ⟨hcs, he⟩ <;> rcases h'.eq_cases with ⟨rfl, he'⟩ | he' | ⟨hds, he'⟩
  · rfl
  · exact absurd (he.symm.trans he') (hscript ds).1
  · exact absurd (he.symm.trans he') (hscript ds).2
  · exact absurd (he'.symm.trans he) (hscript cs).1
  · exact (List.cons.inj (he.symm.trans he')).2
  · exact absurd (he.symm.trans he') (hword hds)
  · exact absurd (he'.symm.trans he) (hscript cs).2
  · exact absurd (he'.symm.trans he) (hword hcs)
  · exact List.append_cancel_right (he.symm.trans he')

end Adorned

/-- An identifier is what the characters of the name are adorned to, or these characters where nothing is. -/
theorem adorned_or_plain (name : String) :
    Adorned (nameChars name) (identifier name).toList ∨
      ((identifier name).toList = nameChars name ∧ ∀ cs, ¬ Adorned (nameChars name) cs) := by
  cases h : nameChars name with
  | nil =>
    rw [identifier_of_nil h]
    exact .inl .blank
  | cons c r =>
    rw [identifier_of_cons h]
    split
    · rename_i hdigit
      rw [String.toList_ofList]
      exact .inl (.digit hdigit)
    · rename_i hdigit
      split
      · rename_i hreserved
        rw [String.toList_ofList]
        exact .inl (.reserved (List.contains_iff_mem.1 hreserved))
      · rename_i hfree
        refine .inr ⟨String.toList_ofList, fun cs hcs => ?_⟩
        cases hcs with
        | digit hc => exact hdigit hc
        | reserved hcs => exact hfree (List.contains_iff_mem.2 hcs)

/-- **When two names give one identifier.** -/
theorem identifier_eq_identifier_iff {a b : String} : identifier a = identifier b ↔ Confusable a b := by
  rw [← String.toList_inj]
  rcases adorned_or_plain a with ha | ⟨ha, hplain⟩ <;> rcases adorned_or_plain b with hb | ⟨hb, hplain'⟩
  · constructor
    · intro he
      rw [he] at ha
      exact .inl (ha.injective hb)
    · rintro (he | h | h)
      · rw [he] at ha
        exact ha.functional hb
      · exact absurd hb h.not_adorned
      · exact absurd ha h.not_adorned
  · constructor
    · intro he
      rw [he, hb] at ha
      exact .inr (.inl ha)
    · rintro (he | h | h)
      · exact absurd (he ▸ ha) (hplain' _)
      · exact (ha.functional h).trans hb.symm
      · exact absurd h (hplain' _)
  · constructor
    · intro he
      rw [← he, ha] at hb
      exact .inr (.inr hb)
    · rintro (he | h | h)
      · exact absurd (he ▸ hb) (hplain _)
      · exact absurd h (hplain _)
      · exact ha.trans (hb.functional h).symm
  · constructor
    · intro he
      exact .inl (ha.symm.trans (he.trans hb))
    · rintro (he | h | h)
      · exact ha.trans (he.trans hb.symm)
      · exact absurd h (hplain _)
      · exact absurd h (hplain' _)

/-! ## Positions of parameters -/

/-- The position of the parameter that a name refers to: the last one of this name. -/
def position? (name : String) : List String → Option Nat
  | [] => none
  | x :: xs =>
    match position? name xs with
    | some i => some (i + 1)
    | none => if x = name then some 0 else none

section
variable {name : String} {xs ys : List String}

theorem position?_eq_none_iff : position? name xs = none ↔ name ∉ xs := by
  induction xs with
  | nil => simp [position?]
  | cons x xs ih =>
    rw [position?]
    cases h : position? name xs with
    | none =>
      have hnone := ih.1 h
      by_cases hx : x = name
      · simp [hx]
      · simp [hx, Ne.symm hx, hnone]
    | some i =>
      have hmem : name ∈ xs := by
        by_contra hnone
        rw [ih.2 hnone] at h
        cases h
      simp [hmem]

/-- A parameter is in reach under its name exactly if no later one has this name. -/
theorem position?_append_cons_iff : position? name (xs ++ name :: ys) = some xs.length ↔ name ∉ ys := by
  induction xs with
  | nil =>
    rw [← position?_eq_none_iff, List.nil_append, position?]
    cases position? name ys <;> simp
  | cons x xs ih =>
    rw [← ih, List.cons_append, position?]
    cases h : position? name (xs ++ name :: ys) with
    | none => exact absurd (List.mem_append_right xs List.mem_cons_self) (position?_eq_none_iff.1 h)
    | some i => simp

theorem identifiers_nodup_iff {names : List String} :
    (names.map identifier).Nodup ↔ names.Pairwise fun a b => ¬ Confusable a b := by
  rw [List.Nodup, List.pairwise_map]
  simp only [ne_eq, identifier_eq_identifier_iff]

/-- A parameter is in reach under its identifier exactly if it is not confusable with a later one. -/
theorem position?_identifier_iff {a : String} {before after : List String} :
    position? (identifier a) ((before ++ a :: after).map identifier) = some before.length ↔
      ∀ b ∈ after, ¬ Confusable a b := by
  have hlength : (before.map identifier).length = before.length := List.length_map _
  rw [List.map_append, List.map_cons, ← hlength, position?_append_cons_iff]
  simp only [List.mem_map, not_exists, not_and, ← identifier_eq_identifier_iff, @eq_comm _ (identifier a)]

end

/-! ## Parameters of functions -/

section
variable {find? : String → Option Definition}

/-- A function was emitted for the first node that calls it. -/
theorem Linked.exists_firstCaller {ss : List (Site find?)} {p : Program} (h : Linked ss p) {f : Function}
    (hf : f ∈ p.functions) : ∃ s ∈ ss, firstCaller ss f.name = some s ∧ s.function = f := by
  obtain ⟨t, ht, rfl, -⟩ := h.origin f hf
  obtain ⟨s, hs, hemitted, -⟩ := h.first t ht
  refine ⟨s, firstCaller_mem hs, hs, ?_⟩
  exact List.inj_on_of_nodup_map h.nodup hemitted.mem hf (firstCaller_callee hs)

/-- **When parameters stay distinct.** A function that was emitted for a template has the identifiers of its parameters,
in declaration order. They are distinct exactly if no two of the names are confusable. In the calls of nodes that declare
these names each value stands at the position of its parameter, and its identifier refers to this position in the body
exactly if no later name is confusable with its own. -/
theorem parameters_stay_distinct_iff {tree : List Node} {text : String} (h : compile find? tree = .ok text) :
    ∃ (forest : Forest find?) (calls : List Call) (p : Program),
      resolve find? tree = .ok forest ∧ forest.emit .empty = (calls, p) ∧ text = p.text (calls.map Call.text) ∧
      let sites := forest.sites .empty
      ∀ f ∈ p.functions, ∃ s ∈ sites, firstCaller sites f.name = some s ∧ s.function = f ∧
        (s.isRaw = true → f.parameters = []) ∧
        (s.isRaw = false →
          let names := s.definition.params.map Param.name
          f.parameters = names.map identifier ∧
          (f.parameters.Nodup ↔ names.Pairwise fun a b => ¬ Confusable a b) ∧
          ∀ t ∈ sites, t.call.callee = f.name → t.definition.params.map Param.name = names →
            ∀ before b after, t.bound = before ++ b :: after →
              t.call.arguments[before.length]? = some b.2.literal ∧
              (position? (identifier b.1) f.parameters = some before.length ↔
                ∀ c ∈ after, ¬ Confusable b.1 c.1)) := by
  obtain ⟨⟨calls, p⟩, hgenerate, rfl⟩ := map_eq_ok_iff.1 h
  obtain ⟨forest, hresolve, hemit⟩ := generate_eq_ok_iff.1 hgenerate
  have hlinked := Forest.linked hemit
  refine ⟨forest, calls, p, hresolve, hemit, rfl, fun f hf => ?_⟩
  obtain ⟨s, hs, hfirst, rfl⟩ := hlinked.exists_firstCaller hf
  refine ⟨s, hs, hfirst, rfl, fun hraw => if_pos hraw, fun hraw => ?_⟩
  have hparameters : s.parameters = (s.definition.params.map Param.name).map identifier := by
    rw [Occurrence.parameters_eq hraw, Definition.parameterNames, List.map_map]
    rfl
  refine ⟨hparameters, ?_, ?_⟩
  · show s.parameters.Nodup ↔ _
    rw [hparameters, identifiers_nodup_iff]
  · intro t ht hcallee hnames before b after hbound
    obtain ⟨u, hu, -, huraw, -⟩ := hlinked.first t ht
    rw [hcallee] at hu
    cases hfirst.symm.trans hu
    have hfst : s.definition.params.map Param.name = before.map Prod.fst ++ b.1 :: after.map Prod.fst := by
      rw [← hnames, ← bindParams_names t.binds, hbound, List.map_append, List.map_cons]
    constructor
    · have htraw : ¬ t.isRaw = true := by rw [← huraw, hraw]; exact Bool.false_ne_true
      rw [hlinked.arguments t ht, Occurrence.arguments, if_neg htraw, hbound]
      simp
    · show position? (identifier b.1) s.parameters = _ ↔ _
      have hlength : (before.map Prod.fst).length = before.length := List.length_map _
      rw [hparameters, hfst, ← hlength, position?_identifier_iff]
      simp

/-- A template for pairs, with its parameters in the given order. -/
def pairings (parameters : List String) (name : String) : Option Definition :=
  [{ copying "Pair" parameters with body := "return a_b;" }].find? fun d => d.name == name

def pairNode (values : List (String × String)) : Node := ⟨"Pair", .ofList values, [], false⟩

/-- Names that only share their beginning stay distinct. -/
theorem parameters_with_common_beginning_stay_distinct :
    ∃ (calls : List Call) (p : Program),
      generate (pairings ["a b", "a_b_", "A"]) [pairNode []] = .ok (calls, p) ∧
        ∀ f ∈ p.functions, f.parameters = ["a_b", "a_b_", "a"] ∧ f.parameters.Nodup := by
  obtain ⟨forest, calls, p, hresolve, hemit, -, hall⟩ :=
    @parameters_stay_distinct_iff (pairings ["a b", "a_b_", "A"]) [pairNode []] _ rfl
  cases hresolve
  cases hemit
  refine ⟨_, _, rfl, fun f hf => ?_⟩
  obtain ⟨s, hs, -, -, -, htemplate⟩ := hall f hf
  cases List.mem_singleton.1 hs
  obtain ⟨hparameters, hnodup, -⟩ := htemplate rfl
  have hnames : (["a b", "a_b_", "A"].map identifier).Nodup := by decide
  exact ⟨hparameters.trans (by decide), hnodup.2 (identifiers_nodup_iff.1 hnames)⟩

/-- Distinct names that give one identifier give one parameter twice. -/
theorem distinct_names_give_one_parameter :
    ¬ ∀ (find? : String → Option Definition) (tree : List Node) (calls : List Call) (p : Program),
      generate find? tree = .ok (calls, p) → ∀ forest : Forest find?, resolve find? tree = .ok forest →
        ∀ s ∈ forest.sites .empty, s.isRaw = false → (s.definition.params.map Param.name).Nodup →
          ∀ f ∈ p.functions, f.name = s.call.callee → f.parameters.Nodup := by
  intro h
  have hnodup := h (pairings ["a b", "a_b"]) [pairNode [("a b", "1"), ("a_b", "2")]] _ _ rfl _ rfl _ List.mem_cons_self
    rfl (by decide) _ List.mem_cons_self rfl
  revert hnodup
  decide

end

end ScriptRunner.Script
