import ScriptRunner.Proofs.Script.Linking

/-!
# Calls and signatures

A call passes the values of its own definition in declaration order. They meet the parameters of this definition when
the function was emitted for a definition whose parameters have the same identifiers in the same order. The table of
shared bodies does not see to that: its keys leave the parameters out. So the calls of a tree match the signatures
exactly when any two templates with the same base name and the same body agree on their parameters
(`calls_match_signatures_iff`).
-/

namespace ScriptRunner.Script

/-- The identifiers of the declared parameters, in declaration order. -/
def Definition.parameterNames (d : Definition) : List String := d.params.map fun p => identifier p.name

variable {find? : String → Option Definition}

namespace Occurrence

variable {o : Occurrence find?}

theorem parameters_eq (h : o.isRaw = false) : o.parameters = o.definition.parameterNames := by
  have hnames := congrArg (List.map identifier) (bindParams_names o.binds)
  rw [List.map_map, List.map_map] at hnames
  rw [parameters, if_neg (by simp [h]), Definition.parameterNames]
  exact hnames

theorem zip_arguments (h : o.isRaw = false) :
    o.parameters.zip o.arguments = o.bound.map fun b => (identifier b.1, b.2.literal) := by
  rw [parameters, arguments, if_neg (by simp [h]), if_neg (by simp [h]), List.zip_map']

end Occurrence

/-- The function of the call has the parameters of the definition, and each takes the argument that is bound to it. -/
def Site.Matched (s : Site find?) (p : Program) : Prop :=
  ∃ f ∈ p.functions, f.name = s.call.callee ∧ f.parameters = s.definition.parameterNames ∧
    f.parameters.zip s.call.arguments = s.bound.map fun b => (identifier b.1, b.2.literal)

namespace Linked

variable {ss : List (Site find?)} {p : Program}

/-- The function of a site has the parameters of the first site that calls it. -/
theorem parameters_eq (h : Linked ss p) {s t : Site find?} (ht : firstCaller ss s.call.callee = some t) {f : Function}
    (hf : f ∈ p.functions) (hname : f.name = s.call.callee) : f.parameters = t.parameters := by
  obtain ⟨u, hu, hemitted, -⟩ := h.first t (firstCaller_mem ht)
  rw [firstCaller_callee ht, ht] at hu
  cases hu
  have hsame : f = t.function :=
    List.inj_on_of_nodup_map h.nodup hf hemitted.mem (hname.trans (firstCaller_callee ht).symm)
  rw [hsame]
  rfl

/-- A template matches exactly when it agrees with the template that its function was emitted for. -/
theorem matched_iff (h : Linked ss p) {s : Site find?} (hs : s ∈ ss) (hraw : s.isRaw = false) :
    ∃ t, firstCaller ss s.call.callee = some t ∧ t.isRaw = false ∧ t.base = s.base ∧
      t.body = s.body ∧ (s.Matched p ↔ t.definition.parameterNames = s.definition.parameterNames) := by
  obtain ⟨t, ht, hemitted, htraw, hbase, hbody⟩ := h.first s hs
  rw [hraw] at htraw
  have hcallee := firstCaller_callee ht
  refine ⟨t, ht, htraw, hbase, hbody, fun hmatched => ?_, fun hagree => ?_⟩
  · obtain ⟨f, hf, hname, hparameters, -⟩ := hmatched
    rw [← hparameters, h.parameters_eq ht hf hname]
    exact (Occurrence.parameters_eq htraw).symm
  · have hparameters : t.parameters = s.parameters := by
      rw [Occurrence.parameters_eq htraw, Occurrence.parameters_eq hraw, hagree]
    refine ⟨t.function, hemitted.mem, hcallee, hparameters.trans (Occurrence.parameters_eq hraw), ?_⟩
    show t.parameters.zip s.call.arguments = _
    rw [hparameters, h.arguments s hs, Occurrence.zip_arguments hraw]

theorem all_matched_iff (h : Linked ss p) :
    (∀ s ∈ ss, s.isRaw = false → s.Matched p) ↔
      ∀ s ∈ ss, ∀ t ∈ ss, s.isRaw = false → t.isRaw = false → s.base = t.base → s.body = t.body →
        s.definition.parameterNames = t.definition.parameterNames := by
  constructor
  · intro hmatched s hs t ht hsraw htraw hbase hbody
    obtain ⟨u, hu, -, -, -, husame⟩ := h.matched_iff hs hsraw
    obtain ⟨v, hv, -, -, -, hvsame⟩ := h.matched_iff ht htraw
    rw [h.callee_eq hs ht hsraw htraw hbase hbody, hv] at hu
    cases hu
    exact (husame.1 (hmatched s hs hsraw)).symm.trans (hvsame.1 (hmatched t ht htraw))
  · intro hagree s hs hraw
    obtain ⟨t, ht, htraw, hbase, hbody, hsame⟩ := h.matched_iff hs hraw
    exact hsame.2 (hagree t (firstCaller_mem ht) s hs htraw hraw hbase hbody)

end Linked

/-- **When calls match the signatures of their functions.** The call of a template matches exactly when its definition
and that of the first node that calls the same function have the same parameters; this node has the same base name and
the same body. So all calls match exactly when any two templates of the same base name and the same body, which may
have two definitions, agree on their parameters. -/
theorem calls_match_signatures_iff {tree : List Node} {calls : List Call} {p : Program}
    (h : generate find? tree = .ok (calls, p)) :
    ∃ forest : Forest find?, resolve find? tree = .ok forest ∧ forest.emit .empty = (calls, p) ∧ p.functionNames.Nodup ∧
      let sites := forest.sites .empty
      (∀ s ∈ sites, s.isRaw = false → ∃ t, firstCaller sites s.call.callee = some t ∧
        t.isRaw = false ∧ t.base = s.base ∧ t.body = s.body ∧
        (s.Matched p ↔ t.definition.parameterNames = s.definition.parameterNames)) ∧
      ((∀ s ∈ sites, s.isRaw = false → s.Matched p) ↔
        ∀ s ∈ sites, ∀ t ∈ sites, s.isRaw = false → t.isRaw = false → s.base = t.base → s.body = t.body →
          s.definition.parameterNames = t.definition.parameterNames) := by
  obtain ⟨forest, hresolve, hemit⟩ := generate_eq_ok_iff.1 h
  have hlinked := Forest.linked hemit
  exact ⟨forest, hresolve, hemit, hlinked.nodup, fun s hs hraw => hlinked.matched_iff hs hraw, hlinked.all_matched_iff⟩

/-- A template for copying, with its parameters in the given order. -/
def copying (name : String) (parameters : List String) : Definition :=
  { Definition.rawSource name "" with
    kind := .template, params := parameters.map fun p => ⟨p, "", .text, false, none⟩, body := "move(from, to);" }

/-- Two definitions whose names give one identifier. -/
def copyings (name : String) : Option Definition :=
  [copying "Copy" ["from", "to"], copying "copy" ["to", "from"]].find? fun d => d.name == name

def copyNode (name : String) : Node := ⟨name, .ofList [("from", "a"), ("to", "b")], [], false⟩

/-- Two nodes of one definition share a function that matches the calls of both. -/
theorem calls_of_one_definition_match :
    ∃ (forest : Forest copyings) (calls : List Call) (p : Program),
      resolve copyings [copyNode "copy", copyNode "copy"] = .ok forest ∧ forest.emit .empty = (calls, p) ∧
        (forest.sites .empty).length = 2 ∧ ∀ s ∈ forest.sites .empty, s.isRaw = false → s.Matched p := by
  obtain ⟨forest, hresolve, hemit, -, -, hall⟩ :=
    @calls_match_signatures_iff copyings [copyNode "copy", copyNode "copy"] _ _ rfl
  cases hresolve
  refine ⟨_, _, _, rfl, hemit, rfl, hall.2 ?_⟩
  intro s hs t ht _ _ _ _
  rcases List.mem_pair.1 hs with rfl | rfl <;> rcases List.mem_pair.1 ht with rfl | rfl <;> rfl

/-- Two definitions share a function that takes the arguments of the second one in the wrong order. -/
theorem calls_of_two_definitions_mismatch :
    ¬ ∀ (find? : String → Option Definition) (tree : List Node) (calls : List Call) (p : Program),
      generate find? tree = .ok (calls, p) → ∀ forest : Forest find?, resolve find? tree = .ok forest →
        ∀ s ∈ forest.sites .empty, s.isRaw = false → s.Matched p := by
  intro h
  have hmatched := h copyings [copyNode "Copy", copyNode "copy"] _ _ rfl _ rfl
  obtain ⟨f, hf, -, hparameters, -⟩ := hmatched _ (List.mem_cons_of_mem _ List.mem_cons_self) rfl
  cases List.mem_singleton.1 hf
  revert hparameters
  decide

end ScriptRunner.Script
