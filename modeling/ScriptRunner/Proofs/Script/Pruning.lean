import ScriptRunner.Proofs.Script.Faults

/-!
# Dead parts of trees

A node is dead if it is disabled, if it lies under a disabled node, or if it lies under a free fragment. `prune` takes
the dead nodes out of a forest, at every depth. What is left are the nodes that compilation looks at, parents before
their children (`visited_prune`, `map_label_nodes_prune`), and resolution does not tell a forest from what is left of it
(`resolve_prune`). So compilation does not either, whatever has been generated before (`dead_parts_do_not_count`).
-/

namespace ScriptRunner.Script

variable {find? : String → Option Definition}

/-! ## Pruning -/

mutual

/-- The node without what is dead under it, unless it is disabled. -/
def pruneNode (find? : String → Option Definition) : Node → Option Node
  | ⟨name, values, children, disabled⟩ =>
    if disabled then none
    else if Node.isFragment find? ⟨name, values, children, disabled⟩ then some ⟨name, values, [], false⟩
    else some ⟨name, values, prune find? children, false⟩

/-- The nodes that are not disabled, each without what is dead under it. -/
def prune (find? : String → Option Definition) : List Node → List Node
  | [] => []
  | n :: ns => (pruneNode find? n).toList ++ prune find? ns

end

mutual

/-- A node and all nodes under it, parents before their children. -/
def nodesFrom : Node → List Node
  | ⟨name, values, children, disabled⟩ => ⟨name, values, children, disabled⟩ :: nodes children

/-- All nodes of a forest. -/
def nodes : List Node → List Node
  | [] => []
  | n :: ns => nodesFrom n ++ nodes ns

end

/-- What a node says by itself. -/
def Node.label (n : Node) : String × Dict String := (n.name, n.values)

section
variable {name : String} {values : Dict String} {children : List Node}

theorem pruneNode_disabled : pruneNode find? ⟨name, values, children, true⟩ = none := by
  rw [pruneNode, if_pos rfl]

theorem pruneNode_fragment {disabled : Bool} (h : Node.isFragment find? ⟨name, values, children, disabled⟩ = true) :
    pruneNode find? ⟨name, values, children, false⟩ = some ⟨name, values, [], false⟩ := by
  rw [pruneNode, if_neg Bool.false_ne_true]
  exact if_pos h

theorem pruneNode_live {disabled : Bool} (h : Node.isFragment find? ⟨name, values, children, disabled⟩ = false) :
    pruneNode find? ⟨name, values, children, false⟩ = some ⟨name, values, prune find? children, false⟩ := by
  rw [pruneNode, if_neg Bool.false_ne_true]
  exact if_neg (Bool.eq_false_iff.1 h)

end

/-! ## What is left -/

mutual

theorem visitedFrom_pruneNode : ∀ n m : Node, pruneNode find? n = some m → visitedFrom find? m = nodesFrom m
  | ⟨name, values, children, true⟩, m, h => by
    rw [pruneNode_disabled] at h
    cases h
  | ⟨name, values, children, false⟩, m, h => by
    have hchildren := visited_prune children
    cases hf : Node.isFragment find? ⟨name, values, children, false⟩ with
    | true =>
      rw [pruneNode_fragment hf] at h
      cases h
      simp only [visitedFrom, nodesFrom, nodes, visited, ite_self]
      rfl
    | false =>
      rw [pruneNode_live hf] at h
      cases h
      have hf' : Node.isFragment find? ⟨name, values, prune find? children, false⟩ = false := hf
      simp only [visitedFrom, nodesFrom, hf', hchildren]
      rfl

/-- Compilation looks at every node that is left. -/
theorem visited_prune : ∀ ns : List Node, visited find? (prune find? ns) = nodes (prune find? ns)
  | [] => rfl
  | n :: ns => by
    have hns := visited_prune ns
    rw [prune]
    cases hn : pruneNode find? n with
    | none => exact hns
    | some m =>
      show visitedFrom find? m ++ visited find? (prune find? ns) = nodesFrom m ++ nodes (prune find? ns)
      rw [visitedFrom_pruneNode n m hn, hns]

end

mutual

theorem map_label_visitedFrom : ∀ n : Node,
    ((pruneNode find? n).toList.flatMap nodesFrom).map Node.label = (visitedFrom find? n).map Node.label
  | ⟨name, values, children, true⟩ => by
    rw [pruneNode_disabled]
    rfl
  | ⟨name, values, children, false⟩ => by
    have hchildren := map_label_nodes_prune children
    cases hf : Node.isFragment find? ⟨name, values, children, false⟩ with
    | true =>
      rw [pruneNode_fragment hf]
      simp [visitedFrom, nodesFrom, nodes, hf, Node.label]
    | false =>
      rw [pruneNode_live hf]
      simp [visitedFrom, nodesFrom, hf, hchildren, Node.label]

/-- Nothing else is taken out than what compilation passes over. -/
theorem map_label_nodes_prune : ∀ ns : List Node,
    (nodes (prune find? ns)).map Node.label = (visited find? ns).map Node.label
  | [] => rfl
  | n :: ns => by
    have hn := map_label_visitedFrom n
    have hns := map_label_nodes_prune ns
    rw [prune, visited, List.map_append, ← hn, ← hns, ← List.map_append]
    cases pruneNode find? n with
    | none => rfl
    | some m => simp [nodes]

end

/-! ## Resolution passes over dead parts -/

mutual

/-- A node resolves as what is left of it, and to nothing if nothing is. -/
theorem resolveNode_pruneNode : ∀ n : Node,
    (pruneNode find? n).elim (.ok .nil) (resolveNode find?) = resolveNode find? n
  | ⟨name, values, children, disabled⟩ => by
    have hchildren := resolve_prune children
    rcases node_cases find? ⟨name, values, children, disabled⟩ with hd | ⟨hd, hf⟩ | ⟨d, e, hd, hf, hb⟩ | ⟨o, ho⟩
    · cases hd
      rw [pruneNode_disabled, resolveNode_disabled]
      rfl
    · cases hd
      have hlive : Node.isFragment find? ⟨name, values, children, false⟩ = false := by
        simp only [Node.isFragment, hf]
        rfl
      rw [pruneNode_live hlive, resolveNode_unknown hf]
      exact resolveNode_unknown hf
    · cases hd
      -- Without bound values it is not known whether a raw source is a fragment, but its children do not matter either.
      have hlive : Node.isFragment find? ⟨name, values, children, false⟩ = false := by
        simp [Node.isFragment, show find? name = some d from hf, show bindParams d values = .error e from hb,
          Except.toOption]
      rw [pruneNode_live hlive, resolveNode_unbound hf hb]
      exact resolveNode_unbound hf hb
    · cases ho
      have hfragment := o.isFragment_node children false
      cases hof : o.isFragment with
      | true =>
        rw [hof] at hfragment
        rw [pruneNode_fragment hfragment, resolveNode_occurrence, if_pos hof]
        exact (resolveNode_occurrence o []).trans (if_pos hof)
      | false =>
        rw [hof] at hfragment
        rw [pruneNode_live hfragment, resolveNode_occurrence, ← hchildren]
        exact resolveNode_occurrence o (prune find? children)

/-- **A forest resolves as what is left of it.** -/
theorem resolve_prune : ∀ ns : List Node, resolve find? (prune find? ns) = resolve find? ns
  | [] => rfl
  | n :: ns => by
    have hn := resolveNode_pruneNode n
    have hns := resolve_prune ns
    rw [prune, resolve, ← hn, ← hns]
    cases pruneNode find? n with
    | some m => rfl
    | none =>
      show resolve find? (prune find? ns) = (resolve find? (prune find? ns)).map Forest.nil.append
      cases resolve find? (prune find? ns) <;> rfl

end

/-- **Dead parts of a tree do not count.** A forest compiles as what is left of it when all disabled nodes are taken out
with what is under them, and all that is under free fragments: to the same text, or with the same error, and whatever
has been generated before, to the same calls and functions. What is left are the nodes that compilation looks at. -/
theorem dead_parts_do_not_count (find? : String → Option Definition) (tree : List Node) :
    compile find? (prune find? tree) = compile find? tree ∧
      (∀ p, compileNodes find? (prune find? tree) p = compileNodes find? tree p) ∧
      visited find? (prune find? tree) = nodes (prune find? tree) ∧
      (nodes (prune find? tree)).map Node.label = (visited find? tree).map Node.label := by
  have hnodes : ∀ p, compileNodes find? (prune find? tree) p = compileNodes find? tree p := by
    intro p
    rw [compileNodes_eq, compileNodes_eq, resolve_prune]
  refine ⟨?_, hnodes, visited_prune tree, map_label_nodes_prune tree⟩
  rw [compile, compile, generate, generate, hnodes]

end ScriptRunner.Script
