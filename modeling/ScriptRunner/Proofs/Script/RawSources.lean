import ScriptRunner.Proofs.Script.CallLines

/-!
# Raw sources with and without declared parameters

A raw source may declare the standard parameters or none. Its code is the same either way (`rawCode_standardBound`). Its
inline flag is not: declared, it is a checkbox that is on unless it is missing, blank, `0` or `false`; undeclared, it is on
for `1` and `true` alone. The two agree on the values that are settled (`isInline_eq_iff`), so trees in which all visited
nodes of the definition have settled values compile alike (`compileNodes_undeclared`). They have to: the top level of a
program shows in its text (`Program.calls_of_text`), and a node at the top level whose value is not settled yields a call
without the declaration only (`raw_sources_compile_alike_iff`).
-/

namespace ScriptRunner.Script

namespace Definition

/-- The definition as raw source with the standard parameters. -/
def declared (d : Definition) : Definition :=
  { d with kind := .rawSource, params := (rawSource d.name d.title).params }

/-- The definition as raw source that declares no parameters. -/
def undeclared (d : Definition) : Definition := { d with kind := .rawSource, params := [] }

end Definition

/-- The definitions that are known, with this one in place of any other of its name. -/
def withDefinition (find? : String → Option Definition) (d : Definition) : String → Option Definition :=
  Function.update find? d.name (some d)

/-! ## What a node says -/

/-- Both readings of the inline flag agree on the value, if there is one. -/
def Settled (values : Dict String) : Prop :=
  ∀ v, values.find? inlineParam = some v →
    let w := Text.trim v
    w = "" ∨ w = "0" ∨ equalIgnoringCase w "false" = true ∨ w = "1" ∨ w = "true"

/-- The bound values of the standard parameters. -/
def standardBound (values : Dict String) : List (String × BoundValue) :=
  [(sourceParam, .text (Text.trim ((values.find? sourceParam).getD ""))),
    (inlineParam, .bool (isChecked (values.find? inlineParam)))]

section
variable {values : Dict String}

theorem Param.bind_textarea (name title scriptTitle : String) (raw : Option String) :
    Param.bind ⟨name, title, .textarea, false, none⟩ scriptTitle raw = .ok (.text (Text.trim (raw.getD ""))) := by
  have hblank : Text.trim "" = "" := rfl
  cases raw with
  | none => rfl
  | some v =>
    by_cases hv : (Text.trim v).isEmpty = true
    · simp [bind, ParamKind.isBoolean, String.isEmpty_iff.1 hv]
    · simp [bind, ParamKind.isBoolean, hv]

theorem bindParams_declared (d : Definition) (values : Dict String) :
    bindParams d.declared values = .ok (standardBound values) := by
  refine bindParams_eq_ok_iff.2 (.cons ⟨rfl, ?_⟩ (.cons ⟨rfl, rfl⟩ .nil))
  exact Param.bind_textarea _ _ _ _

theorem bindParams_undeclared (d : Definition) (values : Dict String) : bindParams d.undeclared values = .ok [] := rfl

/-- The code is the same with and without the declaration. -/
theorem rawCode_standardBound (values : Dict String) : rawCode values (standardBound values) = rawCode values [] := rfl

theorem isInline_standardBound (values : Dict String) :
    isInline values (standardBound values) = isChecked (values.find? inlineParam) := by
  show (BoundValue.bool (isChecked (values.find? inlineParam))).isTrue = _
  cases isChecked (values.find? inlineParam) <;> rfl

theorem isInline_nil (values : Dict String) :
    isInline values [] = ((values.find? inlineParam).map Text.trim).any fun w => w == "1" || w == "true" := by
  unfold isInline
  show _ = ((values.find? inlineParam).map Text.trim).any _
  cases (values.find? inlineParam).map Text.trim <;> rfl

/-- What is on without the declaration is on with it. -/
theorem isChecked_of_one_or_true {v : String} (h : Text.trim v = "1" ∨ Text.trim v = "true") :
    isChecked (some v) = true := by
  rcases h with h | h <;> simp only [isChecked, Option.map_some, h] <;> decide

theorem isChecked_eq_false_iff {v : String} : isChecked (some v) = false ↔
    Text.trim v = "" ∨ Text.trim v = "0" ∨ equalIgnoringCase (Text.trim v) "false" = true := by
  simp only [isChecked, Option.map_some, Bool.not_eq_false', Bool.or_eq_true, String.isEmpty_iff, beq_iff_eq, or_assoc]

/-- **The readings of the inline flag agree exactly on settled values.** -/
theorem isInline_eq_iff : isInline values (standardBound values) = isInline values [] ↔ Settled values := by
  rw [isInline_standardBound, isInline_nil, Settled]
  cases hv : values.find? inlineParam with
  | none => simp [isChecked]
  | some v =>
    simp only [Option.some.injEq, forall_eq', Option.map_some, Option.any_some]
    by_cases hon : Text.trim v = "1" ∨ Text.trim v = "true"
    · rw [isChecked_of_one_or_true hon]
      have hright : (Text.trim v == "1" || Text.trim v == "true") = true := by simpa using hon
      exact iff_of_true hright.symm (.inr (.inr (.inr hon)))
    · have hright : (Text.trim v == "1" || Text.trim v == "true") = false := by simpa using hon
      rw [hright, isChecked_eq_false_iff]
      simp only [hon, or_false]

theorem isInline_standardBound_of_isInline_nil (h : isInline values [] = true) :
    isInline values (standardBound values) = true := by
  rw [isInline_nil] at h
  rw [isInline_standardBound]
  cases hv : values.find? inlineParam with
  | none =>
    rw [hv] at h
    cases h
  | some v =>
    rw [hv] at h
    exact isChecked_of_one_or_true (by simpa using h)

end

/-! ## Trees -/

section
variable (find? : String → Option Definition) (d : Definition)

theorem withDefinition_self : withDefinition find? d d.name = some d := Function.update_self ..

theorem withDefinition_of_ne {name : String} (h : name ≠ d.name) : withDefinition find? d name = find? name :=
  Function.update_of_ne h ..

theorem withDefinition_declared : withDefinition find? d.declared d.name = some d.declared :=
  withDefinition_self find? d.declared

theorem withDefinition_undeclared : withDefinition find? d.undeclared d.name = some d.undeclared :=
  withDefinition_self find? d.undeclared

theorem isFragment_declared (values : Dict String) (children : List Node) (disabled : Bool) :
    Node.isFragment (withDefinition find? d.declared) ⟨d.name, values, children, disabled⟩ =
      isInline values (standardBound values) := by
  simp only [Node.isFragment, withDefinition_declared, Option.any_some, bindParams_declared]
  rfl

theorem isFragment_undeclared (values : Dict String) (children : List Node) (disabled : Bool) :
    Node.isFragment (withDefinition find? d.undeclared) ⟨d.name, values, children, disabled⟩ = isInline values [] := by
  simp only [Node.isFragment, withDefinition_undeclared, Option.any_some, bindParams_undeclared]
  rfl

/-- The compilation of a node asks the registry for its own name, and its children are compiled where it is no free
fragment. -/
theorem compileNode_congr {find?' : String → Option Definition} {name : String} {values : Dict String}
    {children : List Node} {p : Program} (hname : find?' name = find? name)
    (hchildren : Node.isFragment find? ⟨name, values, children, false⟩ = false →
      compileNodes find?' children p = compileNodes find? children p) :
    compileNode find?' ⟨name, values, children, false⟩ p = compileNode find? ⟨name, values, children, false⟩ p := by
  rw [compileNode, compileNode, if_neg Bool.false_ne_true, if_neg Bool.false_ne_true, hname]
  cases hd : find? name with
  | none => rfl
  | some d =>
    cases hb : bindParams d values with
    | error e => simp only [hb]
    | ok bound =>
      cases hflag : d.isRawSource && isInline values bound with
      | true => simp only [hb, hflag, if_true]
      | false =>
        have hlive : Node.isFragment find? ⟨name, values, children, false⟩ = false := by
          simp only [Node.isFragment, hd, Option.any_some, hb]
          exact hflag
        simp only [hb, hflag, hchildren hlive]

/-- A node of the definition with a settled value. -/
theorem compileNode_undeclared_of_settled {values : Dict String} {children : List Node} {p : Program}
    (hsettled : Settled values)
    (hchildren : Node.isFragment (withDefinition find? d.declared) ⟨d.name, values, children, false⟩ = false →
      compileNodes (withDefinition find? d.undeclared) children p =
        compileNodes (withDefinition find? d.declared) children p) :
    compileNode (withDefinition find? d.undeclared) ⟨d.name, values, children, false⟩ p =
      compileNode (withDefinition find? d.declared) ⟨d.name, values, children, false⟩ p := by
  have hinline := isInline_eq_iff.2 hsettled
  rw [isFragment_declared] at hchildren
  rw [compileNode, compileNode, if_neg Bool.false_ne_true, if_neg Bool.false_ne_true]
  simp only [withDefinition_declared, withDefinition_undeclared, bindParams_declared, bindParams_undeclared]
  cases hflag : isInline values (standardBound values) with
  | true =>
    rw [hflag] at hinline
    rw [← hinline]
    rfl
  | false =>
    rw [hflag] at hinline
    rw [← hinline, hchildren hflag]
    rfl

mutual

theorem compileNode_undeclared : ∀ n : Node,
    (∀ m ∈ visitedFrom (withDefinition find? d.declared) n, m.name = d.name → Settled m.values) → ∀ p,
      compileNode (withDefinition find? d.undeclared) n p = compileNode (withDefinition find? d.declared) n p
  | ⟨name, values, children, true⟩, _, p => by rw [compileNode, compileNode, if_pos rfl, if_pos rfl]
  | ⟨name, values, children, false⟩, h, p => by
    have hchildren : Node.isFragment (withDefinition find? d.declared) ⟨name, values, children, false⟩ = false →
        compileNodes (withDefinition find? d.undeclared) children p =
          compileNodes (withDefinition find? d.declared) children p := fun hlive =>
      compileNodes_undeclared children (fun m hm => h m (by simp [visitedFrom, hlive, hm])) p
    by_cases hname : name = d.name
    · subst hname
      have hsettled : Settled values := h _ (by rw [visitedFrom]; exact List.mem_cons_self) rfl
      exact compileNode_undeclared_of_settled find? d hsettled hchildren
    · have hdeclared := withDefinition_of_ne find? d.declared hname
      have hundeclared := withDefinition_of_ne find? d.undeclared hname
      exact compileNode_congr _ (hundeclared.trans hdeclared.symm) hchildren

/-- Trees with settled values compile alike. -/
theorem compileNodes_undeclared : ∀ ns : List Node,
    (∀ m ∈ visited (withDefinition find? d.declared) ns, m.name = d.name → Settled m.values) → ∀ p,
      compileNodes (withDefinition find? d.undeclared) ns p = compileNodes (withDefinition find? d.declared) ns p
  | [], _, p => rfl
  | n :: ns, h, p => by
    have hn := compileNode_undeclared n fun m hm => h m (List.mem_append_left _ hm)
    have hns := compileNodes_undeclared ns fun m hm => h m (List.mem_append_right _ hm)
    simp only [compileNodes, hn, hns]

end

/-- A node that yields a call with the declaration yields one without it. -/
theorem yieldsCall_undeclared {n : Node} (h : n.yieldsCall (withDefinition find? d.declared) = true) :
    n.yieldsCall (withDefinition find? d.undeclared) = true := by
  obtain ⟨name, values, children, disabled⟩ := n
  simp only [Node.yieldsCall, Bool.and_eq_true, Bool.not_eq_true'] at h ⊢
  refine ⟨h.1, ?_⟩
  by_cases hname : name = d.name
  · subst hname
    rw [isFragment_declared] at h
    rw [isFragment_undeclared, ← Bool.not_eq_true]
    intro hon
    rw [isInline_standardBound_of_isInline_nil hon] at h
    exact absurd h.2 (by decide)
  · rw [← h.2]
    simp only [Node.isFragment, withDefinition_of_ne find? d.declared hname,
      withDefinition_of_ne find? d.undeclared hname]

end

/-! ## Programs -/

/-- The text of a program shows the calls of its top level. -/
theorem Program.calls_of_text {p q : Program} {cs ds : List String} (hcs : ∀ c ∈ cs, '\n' ∉ c.toList)
    (hds : ∀ c ∈ ds, '\n' ∉ c.toList) (h : p.text cs = q.text ds) : cs = ds := by
  have hopen : ∀ es : List String, "(function run() \x7b".toList ∉
      es.map (fun e => (indentation ++ e).toList) ++ ["\x7d)();".toList, []] := by
    intro es hm
    rcases List.mem_append.1 hm with hm | hm
    · obtain ⟨e, -, he⟩ := List.mem_map.1 hm
      rw [String.toList_append] at he
      exact absurd (List.cons.inj he).1 (by decide)
    · revert hm
      decide
  have hlines := congrArg (fun t => t.toList.splitOn '\n') h
  simp only [Program.splitOn_text, splitOn_runBlock hcs, splitOn_runBlock hds] at hlines
  have hreversed := congrArg List.reverse hlines
  rw [List.reverse_append, List.reverse_append, List.reverse_cons, List.reverse_cons, List.append_assoc,
    List.append_assoc, List.singleton_append, List.singleton_append] at hreversed
  -- No later line opens a block, so the lines behind the last opening are those of the calls.
  have hsame := (append_cons_inj_of_count hreversed (by
    rw [List.count_reverse, List.count_reverse, List.count_eq_zero.2 (hopen cs), List.count_eq_zero.2 (hopen ds)])).1
  have hmaps := List.append_cancel_right (List.reverse_injective hsame)
  refine List.map_injective_iff.2 (fun a b hab => ?_) hmaps
  simp only [String.toList_append] at hab
  exact String.toList_inj.1 (List.append_cancel_left hab)

section
variable {find? : String → Option Definition} {d : Definition}

/-- A program has a call for each node of the top level that yields one. -/
theorem exists_calls_of_compile {tree : List Node} {text : String} (h : compile find? tree = .ok text) :
    ∃ (calls : List Call) (p : Program), text = p.text (calls.map Call.text) ∧
      (∀ c ∈ calls.map Call.text, '\n' ∉ c.toList) ∧
      (tree.filter (Node.yieldsCall find?)).length = calls.length := by
  obtain ⟨⟨calls, p⟩, hgenerate, rfl⟩ := map_eq_ok_iff.1 h
  obtain ⟨forest, hresolve, hemit⟩ := generate_eq_ok_iff.1 hgenerate
  have hcalls := resolve_calls hresolve .empty
  rw [hemit] at hcalls
  exact ⟨calls, p, rfl, Forest.feed_notMem_calls hemit, hcalls.length_eq⟩

/-- The same nodes of the top level yield calls if the texts are the same. -/
theorem yieldsCall_declared_of_compile {tree : List Node} {text : String}
    (h : compile (withDefinition find? d.declared) tree = .ok text)
    (h' : compile (withDefinition find? d.undeclared) tree = .ok text) {n : Node} (hn : n ∈ tree)
    (hyields : n.yieldsCall (withDefinition find? d.undeclared) = true) :
    n.yieldsCall (withDefinition find? d.declared) = true := by
  obtain ⟨calls, p, rfl, hplain, hlength⟩ := exists_calls_of_compile h
  obtain ⟨calls', p', htext, hplain', hlength'⟩ := exists_calls_of_compile h'
  have hcalls := congrArg List.length (Program.calls_of_text hplain hplain' htext)
  rw [List.length_map, List.length_map, ← hlength, ← hlength'] at hcalls
  have hfilter : tree.filter (Node.yieldsCall (withDefinition find? d.declared)) =
      (tree.filter (Node.yieldsCall (withDefinition find? d.undeclared))).filter
        (Node.yieldsCall (withDefinition find? d.declared)) := by
    rw [List.filter_filter]
    refine List.filter_congr fun m _ => ?_
    cases hm : m.yieldsCall (withDefinition find? d.declared) with
    | false => rfl
    | true => simp [yieldsCall_undeclared find? d hm]
  rw [hfilter] at hcalls
  exact List.filter_eq_self.1 (List.filter_sublist.eq_of_length hcalls) n (List.mem_filter.2 ⟨hn, hyields⟩)

/-- A node at the top level of a program that does not depend on the declaration has a settled value. -/
theorem settled_of_compile {tree : List Node} {text : String}
    (h : compile (withDefinition find? d.declared) tree = .ok text)
    (h' : compile (withDefinition find? d.undeclared) tree = .ok text) {n : Node} (hn : n ∈ tree)
    (hlive : n.disabled = false) (hname : n.name = d.name) : Settled n.values := by
  obtain ⟨name, values, children, disabled⟩ := n
  cases hlive
  cases hname
  refine isInline_eq_iff.1 ?_
  cases hflag : isInline values [] with
  | true => exact isInline_standardBound_of_isInline_nil hflag
  | false =>
    have hyields := yieldsCall_declared_of_compile h h' hn (by
      rw [Node.yieldsCall, isFragment_undeclared, hflag]
      rfl)
    rw [Node.yieldsCall, isFragment_declared] at hyields
    simpa using hyields

/-- A raw source without children always compiles. -/
theorem exists_compile_declared (find? : String → Option Definition) (d : Definition) (values : Dict String) :
    ∃ text, compile (withDefinition find? d.declared) [⟨d.name, values, [], false⟩] = .ok text := by
  cases h : compile (withDefinition find? d.declared) [⟨d.name, values, [], false⟩] with
  | ok text => exact ⟨text, rfl⟩
  | error e =>
    have hfault : Node.fault? (withDefinition find? d.declared) ⟨d.name, values, [], false⟩ = none := by
      simp only [Node.fault?, withDefinition_declared]
      exact fault?_eq_none_iff_binds.2 ⟨_, bindParams_declared d values⟩
    have hfirst := compile_eq_error_iff.1 h
    simp [firstFault?, visited, visitedFrom, hfault] at hfirst

/-- **When raw sources with and without declared parameters compile alike.** The code of a node is the same with and
without the declaration, and the inline flag is the same exactly if its value is settled. So a tree compiles alike if all
nodes of the definition that compilation looks at have settled values, to the same text or with the same error. A tree
that compiles to the same text has settled values in the nodes of the definition at its top level, so a node by itself
compiles alike exactly if its value is settled. -/
theorem raw_sources_compile_alike_iff (find? : String → Option Definition) (d : Definition) :
    let declared := withDefinition find? d.declared
    let undeclared := withDefinition find? d.undeclared
    (∀ values, ∃ bound, bindParams d.declared values = .ok bound ∧ bindParams d.undeclared values = .ok [] ∧
      rawCode values bound = rawCode values [] ∧ (isInline values bound = isInline values [] ↔ Settled values)) ∧
    (∀ tree, (∀ n ∈ visited declared tree, n.name = d.name → Settled n.values) →
      compile undeclared tree = compile declared tree ∧
        ∀ p, compileNodes undeclared tree p = compileNodes declared tree p) ∧
    (∀ tree text, compile declared tree = .ok text → compile undeclared tree = .ok text →
      ∀ n ∈ tree, n.disabled = false → n.name = d.name → Settled n.values) ∧
    ∀ values, compile undeclared [⟨d.name, values, [], false⟩] = compile declared [⟨d.name, values, [], false⟩] ↔
      Settled values := by
  intro declared undeclared
  have hsame : ∀ tree, (∀ n ∈ visited declared tree, n.name = d.name → Settled n.values) →
      compile undeclared tree = compile declared tree := by
    intro tree hsettled
    rw [compile, compile, generate, generate, compileNodes_undeclared find? d tree hsettled]
  refine ⟨fun values => ?_, fun tree hsettled => ?_, fun tree text h h' n hn => ?_, fun values => ⟨fun heq => ?_, ?_⟩⟩
  · exact ⟨_, bindParams_declared d values, bindParams_undeclared d values, rawCode_standardBound values, isInline_eq_iff⟩
  · exact ⟨hsame tree hsettled, compileNodes_undeclared find? d tree hsettled⟩
  · exact settled_of_compile h h' hn
  · obtain ⟨text, htext⟩ := exists_compile_declared find? d values
    exact settled_of_compile htext (heq.trans htext) List.mem_cons_self rfl rfl
  · intro hsettled
    refine hsame _ fun n hn _ => ?_
    have hnode : n = ⟨d.name, values, [], false⟩ := by simpa [visited, visitedFrom] using hn
    rw [hnode]
    exact hsettled

/-- With the declaration the code is a free fragment, without it a function. -/
theorem undeclared_flag_is_off :
    ¬ ∀ (find? : String → Option Definition) (d : Definition) (tree : List Node),
      compile (withDefinition find? d.undeclared) tree = compile (withDefinition find? d.declared) tree := by
  intro h
  have hsame := h (fun _ => none) (Definition.rawSource "snippet" "")
    [⟨"snippet", .ofList [(sourceParam, "a();"), (inlineParam, "yes")], [], false⟩]
  revert hsame
  decide +kernel

end

end ScriptRunner.Script
