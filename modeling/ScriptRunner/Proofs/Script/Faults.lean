import ScriptRunner.Proofs.Script.Resolution

/-!
# Where compilation fails

A node is at fault by itself: its name is unknown, or one of its parameters cannot be bound (`Node.fault?`). Compilation
looks at the nodes of a tree in pre-order and passes over what is disabled or lies under a free fragment (`visited`). Its
error is the fault of the first node among these that is at fault, and what has been generated before plays no part in it
(`compilation_fails_at_first_fault`).
-/

namespace ScriptRunner.Script

variable {find? : String → Option Definition} {e : CompileError}

/-! ## Faults of nodes -/

/-- Why a raw value cannot be bound to the parameter. -/
def Param.fault? (p : Param) (scriptTitle : String) (raw : Option String) : Option CompileError :=
  match p.bind scriptTitle raw with
  | .ok _ => none
  | .error e => some e

/-- What is wrong with the values for a definition: the fault of its first parameter, in declaration order, that cannot be
bound. -/
def Definition.fault? (d : Definition) (values : Dict String) : Option CompileError :=
  d.params.findSome? fun p => p.fault? d.displayTitle (values.find? p.name)

/-- What is wrong with a node by itself. -/
def Node.fault? (find? : String → Option Definition) (n : Node) : Option CompileError :=
  match find? n.name with
  | none => some (.unknownScript n.name)
  | some d => d.fault? n.values

/-- Binding fails with the fault of the first parameter that cannot be bound. -/
theorem bindParams_eq_error_iff {d : Definition} {values : Dict String} :
    bindParams d values = .error e ↔ d.fault? values = some e := by
  unfold bindParams Definition.fault?
  induction d.params with
  | nil => simp [pure, Except.pure]
  | cons p ps ih =>
    rw [List.mapM_cons, List.findSome?_cons, Param.fault?]
    cases p.bind d.displayTitle (values.find? p.name) with
    | error e' => simp [Except.map, bind, Except.bind]
    | ok v =>
      rw [← ih, bind_eq_error_iff]
      constructor
      · rintro (h | ⟨b, -, h⟩)
        · cases h
        · rcases bind_eq_error_iff.1 h with h | ⟨bs, -, h⟩
          · exact h
          · cases h
      · exact fun h => .inr ⟨_, rfl, bind_eq_error_iff.2 (.inl h)⟩

/-- Values without a fault are those that can be bound. -/
theorem fault?_eq_none_iff_binds {d : Definition} {values : Dict String} :
    d.fault? values = none ↔ ∃ bound, bindParams d values = .ok bound := by
  cases h : bindParams d values with
  | error e => simp [bindParams_eq_error_iff.1 h]
  | ok bound =>
    cases hf : d.fault? values with
    | none => simp
    | some e => cases h.symm.trans (bindParams_eq_error_iff.2 hf)

/-! ## The nodes that compilation looks at -/

/-- The node is raw source that is a free fragment. -/
def Node.isFragment (find? : String → Option Definition) (n : Node) : Bool :=
  (find? n.name).any fun d => d.isRawSource && (bindParams d n.values).toOption.any fun bound => isInline n.values bound

mutual

/-- The nodes of the tree under a node that are neither disabled nor under a disabled node or a free fragment, parents
before their children. -/
def visitedFrom (find? : String → Option Definition) : Node → List Node
  | ⟨name, values, children, disabled⟩ =>
    let n : Node := ⟨name, values, children, disabled⟩
    if disabled then []
    else n :: if n.isFragment find? then [] else visited find? children

/-- The same for the trees of a forest, one after the other. -/
def visited (find? : String → Option Definition) : List Node → List Node
  | [] => []
  | n :: ns => visitedFrom find? n ++ visited find? ns

end

/-- The fault of the first node at fault. -/
def firstFault? (find? : String → Option Definition) (tree : List Node) : Option CompileError :=
  (visited find? tree).findSome? (Node.fault? find?)

/-! ## Resolution fails at the first fault -/

theorem Occurrence.fault?_eq_none (o : Occurrence find?) (children : List Node) (disabled : Bool) :
    Node.fault? find? ⟨o.name, o.values, children, disabled⟩ = none := by
  simp only [Node.fault?, o.found]
  exact fault?_eq_none_iff_binds.2 ⟨o.bound, o.binds⟩

theorem Occurrence.isFragment_node (o : Occurrence find?) (children : List Node) (disabled : Bool) :
    Node.isFragment find? ⟨o.name, o.values, children, disabled⟩ = o.isFragment := by
  simp [Node.isFragment, o.found, o.binds, Occurrence.isFragment, Occurrence.isRaw, Except.toOption]

mutual

theorem resolveNode_eq_error_iff : ∀ (n : Node) (e : CompileError),
    resolveNode find? n = .error e ↔ (visitedFrom find? n).findSome? (Node.fault? find?) = some e
  | ⟨name, values, children, disabled⟩, e => by
    have hchildren := resolve_eq_error_iff children e
    rw [firstFault?] at hchildren
    rcases node_cases find? ⟨name, values, children, disabled⟩ with hd | ⟨hd, hf⟩ | ⟨d, e', hd, hf, hb⟩ | ⟨o, ho⟩
    · cases hd
      simp [resolveNode_disabled, visitedFrom]
    · cases hd
      have hfault : Node.fault? find? ⟨name, values, children, false⟩ = some (.unknownScript name) := by
        simp only [Node.fault?, hf]
      simp [resolveNode_unknown hf, visitedFrom, hfault]
    · cases hd
      have hfault : Node.fault? find? ⟨name, values, children, false⟩ = some e' := by
        simp only [Node.fault?, hf, bindParams_eq_error_iff.1 hb]
      simp [resolveNode_unbound hf hb, visitedFrom, hfault]
    · cases ho
      -- Only a node without a fault of its own lets the traversal go on to its children.
      rw [resolveNode_occurrence, visitedFrom, if_neg Bool.false_ne_true, List.findSome?_cons, o.fault?_eq_none,
        o.isFragment_node]
      split
      · simp
      · show _ ↔ (visited find? children).findSome? (Node.fault? find?) = some e
        rw [← hchildren]
        cases resolve find? children <;> simp [Except.map]

theorem resolve_eq_error_iff : ∀ (ns : List Node) (e : CompileError),
    resolve find? ns = .error e ↔ firstFault? find? ns = some e
  | [], e => by simp [resolve, firstFault?, visited]
  | n :: ns, e => by
    have hn := resolveNode_eq_error_iff n
    have hns := resolve_eq_error_iff ns e
    rw [firstFault?, visited, List.findSome?_append]
    cases hr : resolveNode find? n with
    | error e' =>
      rw [(hn e').1 hr]
      simp [resolve, hr]
    | ok f =>
      have hnone : (visitedFrom find? n).findSome? (Node.fault? find?) = none := by
        cases hs : (visitedFrom find? n).findSome? (Node.fault? find?) with
        | none => rfl
        | some e' => cases hr.symm.trans ((hn e').2 hs)
      rw [hnone, Option.none_or, ← firstFault?, ← hns, resolve, hr]
      cases resolve find? ns <;> simp [Except.map]

end

/-! ## Compilation fails at the first fault -/

/-- Whatever has been generated before, nodes fail to compile at their first fault. -/
theorem compileNodes_eq_error_iff {ns : List Node} {p : Program} :
    compileNodes find? ns p = .error e ↔ firstFault? find? ns = some e := by
  rw [compileNodes_eq, ← resolve_eq_error_iff]
  cases resolve find? ns <;> simp [Except.map]

theorem compile_eq_error_iff {tree : List Node} : compile find? tree = .error e ↔ firstFault? find? tree = some e := by
  rw [← compileNodes_eq_error_iff (p := .empty), compile, generate]
  cases compileNodes find? tree .empty <;> simp [Except.map]

/-- A node is at fault if its name is unknown or its parameters cannot be bound. -/
theorem Node.exists_fault?_iff {n : Node} : (∃ e, n.fault? find? = some e) ↔
    find? n.name = none ∨ ∃ d e, find? n.name = some d ∧ bindParams d n.values = .error e := by
  unfold fault?
  cases find? n.name with
  | none => simp
  | some d => simp [bindParams_eq_error_iff]

/-- **Compilation fails exactly at the first fault** of the nodes that it looks at, in pre-order, and with this fault.
Whatever has been generated before, it fails alike. -/
theorem compilation_fails_at_first_fault (find? : String → Option Definition) (tree : List Node) :
    ((∃ e, compile find? tree = .error e) ↔
      ∃ n ∈ visited find? tree,
        find? n.name = none ∨ ∃ d e, find? n.name = some d ∧ bindParams d n.values = .error e) ∧
    (∀ e, compile find? tree = .error e ↔
      ∃ before n after, visited find? tree = before ++ n :: after ∧ (∀ m ∈ before, m.fault? find? = none) ∧
        n.fault? find? = some e) ∧
    ∀ p e, compileNodes find? tree p = .error e ↔ compile find? tree = .error e := by
  have hfirst : ∀ e, compile find? tree = .error e ↔ (visited find? tree).findSome? (Node.fault? find?) = some e :=
    fun e => compile_eq_error_iff
  refine ⟨?_, fun e => ?_, fun p e => compileNodes_eq_error_iff.trans compile_eq_error_iff.symm⟩
  · simp only [hfirst, ← Node.exists_fault?_iff]
    rw [← Option.isSome_iff_exists, List.findSome?_isSome_iff]
    simp only [Option.isSome_iff_exists]
  · rw [hfirst, List.findSome?_eq_some_iff]
    constructor
    · rintro ⟨before, n, after, hsplit, hfault, hbefore⟩
      exact ⟨before, n, after, hsplit, hbefore, hfault⟩
    · rintro ⟨before, n, after, hsplit, hbefore, hfault⟩
      exact ⟨before, n, after, hsplit, hfault, hbefore⟩

/-- A disabled node is passed over, and a child comes before the sibling of its parent. -/
example : firstFault? (fun name => if name = "group" then some (.rawSource "group" "Group") else none)
    [⟨"lost", .empty, [], true⟩, ⟨"group", .empty, [⟨"inner", .empty, [], false⟩], false⟩, ⟨"outer", .empty, [], false⟩] =
      some (.unknownScript "inner") := rfl

end ScriptRunner.Script
