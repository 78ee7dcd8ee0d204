import ScriptRunner.Proofs.Script.Callees
import ScriptRunner.Proofs.Script.Nesting
import ScriptRunner.Proofs.Script.Signatures

/-!
# What calls refer to

A call refers to the function of its name unless the name is bound around the call (`Program.lookup`). Around a call in a
function these are the parameters of the function, and around a call of the top level it is `run`, the name of the block
that makes these calls. Names of functions are chosen without a look at either. So a call in a function reaches the
function of the child exactly if this is not named like a parameter (`nested_calls_reach_functions_iff`), and a call of
the top level reaches its function unless this is named `run`, which happens exactly if a template is
(`run_block_reaches_functions_iff`).
-/

namespace ScriptRunner.Script

/-! ## Scopes -/

/-- The name that is bound around the calls of the top level. -/
def runName : String := "run"

/-- The function that a name refers to where some names are bound: a bound name hides the function. -/
def Program.lookup (p : Program) (bound : List String) (name : String) : Option Function :=
  if bound.contains name then none else p.functions.find? fun f => f.name == name

theorem Program.lookup_eq_some_iff {p : Program} (h : p.functionNames.Nodup) {bound : List String} {name : String}
    {f : Function} : p.lookup bound name = some f ↔ name ∉ bound ∧ f ∈ p.functions ∧ f.name = name := by
  unfold lookup
  split
  · rename_i hbound
    simp [List.contains_iff_mem.1 hbound]
  · rename_i hbound
    have hfree : name ∉ bound := fun hm => hbound (List.contains_iff_mem.2 hm)
    constructor
    · intro hfind
      exact ⟨hfree, List.mem_of_find?_eq_some hfind, by simpa using List.find?_some hfind⟩
    · rintro ⟨-, hf, hname⟩
      cases hfind : p.functions.find? fun f => f.name == name with
      | none => exact absurd hname (by simpa using List.find?_eq_none.1 hfind f hf)
      | some g =>
        have hg : g.name = name := by simpa using List.find?_some hfind
        exact congrArg some (List.inj_on_of_nodup_map h (List.mem_of_find?_eq_some hfind) hf (hg.trans hname.symm))

section
variable {find? : String → Option Definition}

namespace Site

/-- Where the names are bound, the call of the site refers to the function that has its text and the calls of its
children. -/
def ReachedFrom (s : Site find?) (bound : List String) (p : Program) : Prop :=
  ∃ f, p.lookup bound s.call.callee = some f ∧ f.body.toList = s.own.fill s.inner

/-- The calls of the children that stand in the function of the site. -/
def shown (s : Site find?) : List Call := if s.own.takesCalls then s.inner else []

/-- In the function of the first site the call of the second one refers to the function of this. -/
def Reaches (s u : Site find?) (p : Program) : Prop :=
  ∃ f ∈ p.functions, f.name = s.call.callee ∧ u.ReachedFrom f.parameters p

/-- The function of the site has no parameter that is named like a function which a call in it is meant for. -/
def Uncaptured (s : Site find?) (p : Program) : Prop :=
  ∀ f ∈ p.functions, f.name = s.call.callee → ∀ c ∈ s.shown, c.callee ∉ f.parameters

theorem mem_inner_of_mem_shown {s : Site find?} {c : Call} (h : c ∈ s.shown) : c ∈ s.inner := by
  unfold shown at h
  split at h
  · exact h
  · exact absurd h List.not_mem_nil

end Site

/-! ## Calls in functions -/

namespace Linked

variable {ss : List (Site find?)} {p : Program}

theorem reachedFrom_iff (h : Linked ss p) {s : Site find?} (hs : s ∈ ss) {bound : List String} :
    s.ReachedFrom bound p ↔ s.call.callee ∉ bound := by
  constructor
  · rintro ⟨f, hlookup, -⟩
    exact ((Program.lookup_eq_some_iff h.nodup).1 hlookup).1
  · intro hfree
    obtain ⟨f, hf, hname, hbody⟩ := h.exists_body hs
    exact ⟨f, (Program.lookup_eq_some_iff h.nodup).2 ⟨hfree, hf, hname⟩, hbody⟩

theorem reaches_iff (h : Linked ss p) {s t u : Site find?} (hs : s ∈ ss) (hu : u ∈ ss)
    (ht : firstCaller ss s.call.callee = some t) : s.Reaches u p ↔ u.call.callee ∉ t.parameters := by
  constructor
  · rintro ⟨f, hf, hname, hreached⟩
    rw [← h.parameters_eq ht hf hname]
    exact (h.reachedFrom_iff hu).1 hreached
  · intro hfree
    obtain ⟨f, hf, hname, -⟩ := h.exists_body hs
    rw [← h.parameters_eq ht hf hname] at hfree
    exact ⟨f, hf, hname, (h.reachedFrom_iff hu).2 hfree⟩

theorem uncaptured_iff (h : Linked ss p) {s t : Site find?} (hs : s ∈ ss) (ht : firstCaller ss s.call.callee = some t) :
    s.Uncaptured p ↔ ∀ c ∈ s.shown, c.callee ∉ t.parameters := by
  constructor
  · intro huncaptured
    obtain ⟨f, hf, hname, -⟩ := h.exists_body hs
    rw [← h.parameters_eq ht hf hname]
    exact huncaptured f hf hname
  · intro hfree f hf hname
    rw [h.parameters_eq ht hf hname]
    exact hfree

theorem uncaptured_iff_reaches (h : Linked ss p) {s : Site find?} (hs : s ∈ ss) :
    s.Uncaptured p ↔ ∀ u ∈ ss, u.call ∈ s.shown → s.Reaches u p := by
  obtain ⟨t, ht, -⟩ := h.first s hs
  rw [h.uncaptured_iff hs ht]
  constructor
  · intro hfree u hu hshown
    exact (h.reaches_iff hs hu ht).2 (hfree u.call hshown)
  · intro hreaches c hc
    obtain ⟨u, hu, rfl⟩ := h.inner s hs c (Site.mem_inner_of_mem_shown hc)
    exact (h.reaches_iff hs hu ht).1 (hreaches u hu hc)

end Linked

/-- **When parameters do not capture calls.** The calls in a function reach the functions of the children exactly if no
parameter is named like one of these. Raw code has no parameters; a template has those of the first node that calls its
function, which has the same base name and the same body. The function of a child has its base name, plain or with a
number. -/
theorem nested_calls_reach_functions_iff {tree : List Node} {calls : List Call} {p : Program}
    (h : generate find? tree = .ok (calls, p)) :
    ∃ forest : Forest find?, resolve find? tree = .ok forest ∧ forest.emit .empty = (calls, p) ∧
      let sites := forest.sites .empty
      ∀ s ∈ sites, (s.Uncaptured p ↔ ∀ u ∈ sites, u.call ∈ s.shown → s.Reaches u p) ∧
        (s.isRaw = true → s.Uncaptured p) ∧
        (s.isRaw = false → ∃ t, firstCaller sites s.call.callee = some t ∧ t.isRaw = false ∧ t.base = s.base ∧
          t.body = s.body ∧ (s.Uncaptured p ↔ ∀ c ∈ s.shown, c.callee ∉ t.definition.parameterNames)) ∧
        ∀ u ∈ sites, u.call ∈ s.shown → u.IsNamed := by
  obtain ⟨forest, hresolve, hemit⟩ := generate_eq_ok_iff.1 h
  have hlinked := Forest.linked hemit
  have hnamed := Forest.named hemit
  refine ⟨forest, hresolve, hemit, ?_⟩
  intro sites s hs
  obtain ⟨t, ht, -, htraw, htbase, htbody⟩ := hlinked.first s hs
  have huncaptured := hlinked.uncaptured_iff hs ht
  refine ⟨hlinked.uncaptured_iff_reaches hs, ?_, ?_, ?_⟩
  · intro hraw
    rw [huncaptured, Occurrence.parameters, if_pos (htraw.trans hraw)]
    intro c _
    exact List.not_mem_nil
  · intro hraw
    rw [hraw] at htraw
    rw [Occurrence.parameters_eq htraw] at huncaptured
    exact ⟨t, ht, htraw, htbase, htbody, huncaptured⟩
  · intro u hu _
    exact hnamed.names u hu

/-- A group with one parameter, and what goes into it. -/
def groupings (parameter name : String) : Option Definition :=
  [{ plainTemplate "Group" "%body%" with params := [⟨parameter, "", .text, false, none⟩] },
    plainTemplate "Greet" "return 1;"].find? fun d => d.name == name

def groupNode (parameter : String) (children : List Node) : Node :=
  ⟨"Group", .ofList [(parameter, "x")], children, false⟩

/-- A parameter that has a name of its own leaves the call in the group alone. -/
theorem call_in_group_reaches_function :
    ∃ (forest : Forest (groupings "who")) (calls : List Call) (p : Program),
      resolve (groupings "who") [groupNode "who" [plainNode "Greet" []]] = .ok forest ∧
        forest.emit .empty = (calls, p) ∧ p.functions.map Function.parameters = [[], ["who"]] ∧
        ∀ s ∈ forest.sites .empty, ∀ u ∈ forest.sites .empty, u.call ∈ s.shown → s.Reaches u p := by
  obtain ⟨forest, hresolve, hemit, hall⟩ :=
    @nested_calls_reach_functions_iff (groupings "who") [groupNode "who" [plainNode "Greet" []]] _ _ rfl
  cases hresolve
  refine ⟨_, _, _, rfl, hemit, rfl, ?_⟩
  intro s hs
  obtain ⟨hreaches, -, htemplate, -⟩ := hall s hs
  refine hreaches.1 ?_
  rcases List.mem_pair.1 hs with rfl | rfl
  · obtain ⟨t, -, -, -, -, hfree⟩ := htemplate rfl
    exact hfree.2 fun c hc => absurd hc List.not_mem_nil
  · obtain ⟨t, ht, -, -, -, hfree⟩ := htemplate rfl
    cases ht
    exact hfree.2 (by decide)

/-- A parameter that is named like the child's function captures the call of the child. -/
theorem parameter_captures_call :
    ¬ ∀ (find? : String → Option Definition) (tree : List Node) (calls : List Call) (p : Program),
      generate find? tree = .ok (calls, p) → ∀ forest : Forest find?, resolve find? tree = .ok forest →
        ∀ s ∈ forest.sites .empty, s.isRaw = false → s.Uncaptured p := by
  intro h
  have huncaptured := h (groupings "greet") [groupNode "greet" [plainNode "Greet" []]] _ _ rfl _ rfl
  have hgroup := huncaptured _ (List.mem_cons_of_mem _ List.mem_cons_self) rfl
  have hcaptured := hgroup _ (List.mem_cons_of_mem _ List.mem_cons_self) rfl _ List.mem_cons_self
  revert hcaptured
  decide

/-! ## Calls of the top level -/

/-- The block that makes the calls binds its name around them. -/
theorem runBlock_eq (calls : List String) :
    runBlock calls = "(function " ++ runName ++ "() \x7b\n" ++
      String.join (calls.map fun c => indentation ++ c ++ "\n") ++ "\x7d)();\n" := rfl

theorem Program.text_eq (p : Program) (calls : List String) :
    p.text calls = String.join ((p.fragments ++ p.functions.map Function.text).map fun part => part ++ "\n") ++
      runBlock calls := by
  rw [← String.toList_inj, Program.text, String.toList_intercalate, List.map_append, List.map_singleton,
    intercalate_concat]
  simp [List.flatMap_map]

theorem identifier_eq_runName_iff {name : String} :
    identifier name = runName ↔ equalIgnoringCase (Text.trim name) runName = true := by
  have hlower : runName.toList.all Char.isLower = true := by decide
  exact identifier_eq_iff (List.all_eq_true.1 hlower) (by decide) (by decide) (by decide)

/-- A number behind a name sets it apart from the block's name. -/
theorem suffixed_ne_runName (base : String) (n : Nat) : Program.suffixed base n ≠ runName := by
  intro he
  have hmem : '_' ∈ runName.toList := by
    rw [← he, Program.toList_suffixed]
    simp
  exact absurd hmem (by decide)

/-- A function has the block's name exactly if a template has it as its base name. -/
theorem runName_mem_iff {ss : List (Site find?)} {p : Program} (hlinked : Linked ss p) (hnamed : Named ss p) :
    runName ∈ p.functionNames ↔ ∃ s ∈ ss, s.isRaw = false ∧ s.base = runName := by
  constructor
  · intro hm
    obtain ⟨f, hf, hname⟩ := List.mem_map.1 hm
    obtain ⟨s, hs, rfl, -⟩ := hlinked.origin f hf
    rcases hnamed.names s hs with ⟨hraw, hplain⟩ | ⟨n, hnumbered⟩
    · exact ⟨s, hs, hraw, hplain.symm.trans hname⟩
    · exact absurd (hnumbered.symm.trans hname) (suffixed_ne_runName s.base n)
  · rintro ⟨s, hs, hraw, hbase⟩
    exact hbase ▸ hnamed.bases s hs hraw

/-- **When the block that runs a program calls its functions.** A program ends with the block, whose name is bound around
the calls of the top level. No function has this name exactly if no live template is named `run`, whatever its case and
the blanks at its ends. A call of the top level reaches the function of its node exactly if this has another name. -/
theorem run_block_reaches_functions_iff {tree : List Node} {text : String} (h : compile find? tree = .ok text) :
    ∃ (forest : Forest find?) (calls : List Call) (p : Program),
      resolve find? tree = .ok forest ∧ forest.emit .empty = (calls, p) ∧
      text = String.join ((p.fragments ++ p.functions.map Function.text).map fun part => part ++ "\n") ++
        ("(function " ++ runName ++ "() \x7b\n" ++
          String.join (calls.map fun c => indentation ++ c.text ++ "\n") ++ "\x7d)();\n") ∧
      let sites := forest.sites .empty
      (runName ∉ p.functionNames ↔
        ∀ s ∈ sites, s.isRaw = false → equalIgnoringCase (Text.trim s.definition.name) runName = false) ∧
      (∀ c ∈ calls, ∃ s ∈ sites, s.call = c) ∧
      ∀ s ∈ sites, s.call ∈ calls → (s.ReachedFrom [runName] p ↔ s.call.callee ≠ runName) := by
  obtain ⟨⟨calls, p⟩, hgenerate, rfl⟩ := map_eq_ok_iff.1 h
  obtain ⟨forest, hresolve, hemit⟩ := generate_eq_ok_iff.1 hgenerate
  have hlinked := Forest.linked hemit
  refine ⟨forest, calls, p, hresolve, hemit, ?_, ?_, ?_, ?_⟩
  · show p.text (calls.map Call.text) = _
    rw [Program.text_eq, runBlock_eq, List.map_map]
    rfl
  · rw [runName_mem_iff hlinked (Forest.named hemit)]
    simp only [not_exists, not_and, Occurrence.base, identifier_eq_runName_iff, Bool.not_eq_true]
  · intro c hc
    rw [show calls = (forest.emit .empty).1 by rw [hemit]] at hc
    exact forest.exists_site .empty c hc
  · intro s hs _
    rw [hlinked.reachedFrom_iff hs, List.mem_singleton]

def runners (name : String) : Option Definition :=
  [plainTemplate "Rerun" "%body%", plainTemplate "Run" "return 1;"].find? fun d => d.name == name

/-- A name that only contains the block's name does no harm. -/
theorem rerun_is_reached :
    ∃ (forest : Forest runners) (calls : List Call) (p : Program),
      resolve runners [plainNode "Rerun" []] = .ok forest ∧ forest.emit .empty = (calls, p) ∧ calls = [⟨"rerun", []⟩] ∧
        runName ∉ p.functionNames ∧ ∀ s ∈ forest.sites .empty, s.call ∈ calls → s.ReachedFrom [runName] p := by
  obtain ⟨forest, calls, p, hresolve, hemit, -, hnames, -, hreached⟩ :=
    @run_block_reaches_functions_iff runners [plainNode "Rerun" []] _ rfl
  cases hresolve
  cases hemit
  refine ⟨_, _, _, rfl, rfl, rfl, hnames.2 (by decide), ?_⟩
  intro s hs hcall
  refine (hreached s hs hcall).2 ?_
  cases List.mem_singleton.1 hs
  decide

/-- A template named `run` is never called: the block calls itself. -/
theorem run_block_calls_itself :
    ∃ (calls : List Call) (p : Program), generate runners [plainNode "Run" []] = .ok (calls, p) ∧
      runName ∈ p.functionNames ∧ ∃ c ∈ calls, p.lookup [runName] c.callee = none := by
  refine ⟨_, _, rfl, ?_, ?_⟩
  · decide
  · exact ⟨_, List.mem_cons_self, by decide⟩

end

end ScriptRunner.Script
