import ScriptRunner.Proofs.Script.Binding

/-!
# Resolved trees

Compilation is two passes in one. `resolve` puts definitions and bound values in place of names and raw values, leaves
out what is disabled or lies under a free fragment, and alone can fail; `Forest.emit` threads the program through what
is left. `compileNodes_eq` says that the two passes are the compilation. `Forest.sites` lists the nodes that yield calls
in the order in which they are linked, each with its call and the calls of its own children.
-/

namespace ScriptRunner.Script

/-- A live node, with its definition and its bound values. -/
structure Occurrence (find? : String → Option Definition) where
  name : String
  values : Dict String
  definition : Definition
  bound : List (String × BoundValue)
  found : find? name = some definition
  binds : bindParams definition values = .ok bound

/-- A text that calls go into. -/
structure OwnText where
  isRaw : Bool
  text : List Char
  deriving DecidableEq

namespace OwnText

/-- The text shows where calls go. -/
def hasPlace (t : OwnText) : Prop := 1 < (pieces t.text).length

instance (t : OwnText) : Decidable t.hasPlace := inferInstanceAs (Decidable (1 < _))

/-- The text with the lines of calls in all its places. Raw code without a place has them on a new line, another text
without one does not have them. -/
def fill (t : OwnText) (calls : List Call) : List Char :=
  if t.isRaw = true ∧ ¬ t.hasPlace ∧ calls ≠ [] then t.text ++ '\n' :: callLines calls
  else (callLines calls).intercalate (pieces t.text)

end OwnText

section
variable {find? : String → Option Definition}

namespace Occurrence

def isRaw (o : Occurrence find?) : Bool := o.definition.isRawSource

/-- A free fragment, which yields no call and hides what is under it. -/
def isFragment (o : Occurrence find?) : Bool := o.isRaw && isInline o.values o.bound

def base (o : Occurrence find?) : String := identifier o.definition.name

def code (o : Occurrence find?) : String := rawCode o.values o.bound

/-- The text that the node brings to its function. -/
def own (o : Occurrence find?) : OwnText := ⟨o.isRaw, if o.isRaw then o.code.toList else o.definition.body.toList⟩

def parameters (o : Occurrence find?) : List String := if o.isRaw then [] else o.bound.map fun b => identifier b.1

def arguments (o : Occurrence find?) : List String := if o.isRaw then [] else o.bound.map fun b => b.2.literal

def body (o : Occurrence find?) (inner : List Call) : String := String.ofList (o.own.fill inner)

def link (o : Occurrence find?) (inner : List Call) (p : Program) : Call × Program :=
  linkNode o.definition o.values o.bound inner p

end Occurrence

/-- The live nodes of a tree; a node comes with the forest under it and the forest after it. -/
inductive Forest (find? : String → Option Definition) where
  | nil
  | fragment (o : Occurrence find?) (rest : Forest find?)
  | call (o : Occurrence find?) (children rest : Forest find?)

/-- A live node that yields a call, with the calls of its own children and its call. -/
structure Site (find? : String → Option Definition) extends Occurrence find? where
  inner : List Call
  call : Call

namespace Forest

def append : Forest find? → Forest find? → Forest find?
  | nil, g => g
  | fragment o rest, g => fragment o (rest.append g)
  | call o children rest, g => call o children (rest.append g)

/-- The calls of a forest, and the program after them. -/
def emit : Forest find? → Program → List Call × Program
  | nil, p => ([], p)
  | fragment o rest, p => rest.emit (p.addFragment o.code)
  | call o children rest, p =>
    let inner := children.emit p
    let linked := o.link inner.1 inner.2
    let others := rest.emit linked.2
    (linked.1 :: others.1, others.2)

/-- The nodes that yield calls, in the order in which they are linked: children come before their parents. -/
def sites : Forest find? → Program → List (Site find?)
  | nil, _ => []
  | fragment o rest, p => rest.sites (p.addFragment o.code)
  | call o children rest, p =>
    let inner := children.emit p
    let linked := o.link inner.1 inner.2
    children.sites p ++ ⟨o, inner.1, linked.1⟩ :: rest.sites linked.2

theorem emit_append (f g : Forest find?) (p : Program) :
    (f.append g).emit p = ((f.emit p).1 ++ (g.emit (f.emit p).2).1, (g.emit (f.emit p).2).2) := by
  induction f generalizing p with
  | nil => rfl
  | fragment o rest ih => exact ih _
  | call o children rest _ ih => simp [append, emit, ih]

end Forest

end

mutual

/-- The forest of a node: nothing if it is disabled, else the node alone. -/
def resolveNode (find? : String → Option Definition) : Node → Except CompileError (Forest find?)
  | ⟨name, values, children, disabled⟩ =>
    if disabled then .ok .nil
    else
      match found : find? name with
      | none => .error (.unknownScript name)
      | some d =>
        match binds : bindParams d values with
        | .error e => .error e
        | .ok bound =>
          let o : Occurrence find? := ⟨name, values, d, bound, found, binds⟩
          if o.isFragment then .ok (.fragment o .nil)
          else (resolve find? children).map fun inner => .call o inner .nil

/-- The forest of a list of nodes, unless a live node has no definition or a value that cannot be bound. -/
def resolve (find? : String → Option Definition) : List Node → Except CompileError (Forest find?)
  | [] => .ok .nil
  | n :: ns =>
    match resolveNode find? n with
    | .error e => .error e
    | .ok f => (resolve find? ns).map f.append

end

section
variable {find? : String → Option Definition}

section
variable {name : String} {values : Dict String} {children : List Node}

theorem resolveNode_disabled : resolveNode find? ⟨name, values, children, true⟩ = .ok .nil := by
  rw [resolveNode, if_pos rfl]

theorem resolveNode_unknown (h : find? name = none) :
    resolveNode find? ⟨name, values, children, false⟩ = .error (.unknownScript name) := by
  rw [resolveNode, if_neg Bool.false_ne_true]
  split
  · rfl
  · rename_i hd
    rw [h] at hd
    cases hd

theorem resolveNode_unbound {d : Definition} {e : CompileError} (hd : find? name = some d)
    (he : bindParams d values = .error e) : resolveNode find? ⟨name, values, children, false⟩ = .error e := by
  rw [resolveNode, if_neg Bool.false_ne_true]
  split
  · rename_i h
    rw [hd] at h
    cases h
  · rename_i h
    cases hd.symm.trans h
    split
    · rename_i h
      exact congrArg Except.error (Except.error.inj (h.symm.trans he))
    · rename_i h
      cases h.symm.trans he

theorem resolveNode_occurrence (o : Occurrence find?) (children : List Node) :
    resolveNode find? ⟨o.name, o.values, children, false⟩ =
      if o.isFragment then .ok (.fragment o .nil)
      else (resolve find? children).map fun inner => .call o inner .nil := by
  obtain ⟨name, values, d, bound, found, binds⟩ := o
  rw [resolveNode, if_neg Bool.false_ne_true]
  split
  · rename_i h
    rw [found] at h
    cases h
  · rename_i h
    cases found.symm.trans h
    split
    · rename_i h
      cases h.symm.trans binds
    · rename_i h
      cases binds.symm.trans h
      rfl

/-- A node is disabled, or has no definition, or has a value that cannot be bound, or is an occurrence. -/
theorem node_cases (find? : String → Option Definition) (n : Node) :
    n.disabled = true ∨ (n.disabled = false ∧ find? n.name = none) ∨
      (∃ d e, n.disabled = false ∧ find? n.name = some d ∧ bindParams d n.values = .error e) ∨
      ∃ o : Occurrence find?, n = ⟨o.name, o.values, n.children, false⟩ := by
  obtain ⟨name, values, children, disabled⟩ := n
  cases disabled with
  | true => exact .inl rfl
  | false =>
    rcases hd : find? name with _ | d
    · exact .inr (.inl ⟨rfl, rfl⟩)
    · rcases hb : bindParams d values with e | bound
      · exact .inr (.inr (.inl ⟨d, e, rfl, rfl, hb⟩))
      · exact .inr (.inr (.inr ⟨⟨name, values, d, bound, hd, hb⟩, rfl⟩))

end

/-- A node gives at most one call. -/
theorem toList_head?_emit {n : Node} {f : Forest find?} (h : resolveNode find? n = .ok f) (p : Program) :
    (f.emit p).1.head?.toList = (f.emit p).1 := by
  obtain ⟨name, values, children, disabled⟩ := n
  rcases node_cases find? ⟨name, values, children, disabled⟩ with hd | ⟨hd, hf⟩ | ⟨d, e, hd, hf, hb⟩ | ⟨o, ho⟩
  · cases hd
    cases resolveNode_disabled.symm.trans h
    rfl
  · cases hd
    cases (resolveNode_unknown hf).symm.trans h
  · cases hd
    cases (resolveNode_unbound hf hb).symm.trans h
  · cases ho
    rw [resolveNode_occurrence] at h
    split at h
    · cases h
      rfl
    · cases hr : resolve find? children with
      | error e => rw [hr] at h; cases h
      | ok inner => rw [hr] at h; cases h; rfl

mutual

theorem compileNode_eq (find? : String → Option Definition) : ∀ (n : Node) (p : Program),
    compileNode find? n p = (resolveNode find? n).map fun f => ((f.emit p).1.head?, (f.emit p).2)
  | ⟨name, values, children, disabled⟩, p => by
    have hchildren := compileNodes_eq find? children p
    rcases node_cases find? ⟨name, values, children, disabled⟩ with hd | ⟨hd, hf⟩ | ⟨d, e, hd, hf, hb⟩ | ⟨o, ho⟩
    · cases hd
      rw [resolveNode_disabled, compileNode, if_pos rfl]
      rfl
    · cases hd
      rw [resolveNode_unknown hf, compileNode, if_neg Bool.false_ne_true]
      simp only [hf]
      rfl
    · cases hd
      rw [resolveNode_unbound hf hb, compileNode, if_neg Bool.false_ne_true]
      simp only [hf, hb]
      rfl
    · cases ho
      rw [resolveNode_occurrence, compileNode, if_neg Bool.false_ne_true]
      simp only [o.found, o.binds, hchildren]
      show (if o.isFragment = true then _ else _) = _
      split
      · rfl
      · cases resolve find? children <;> rfl

theorem compileNodes_eq (find? : String → Option Definition) : ∀ (ns : List Node) (p : Program),
    compileNodes find? ns p = (resolve find? ns).map fun f => f.emit p
  | [], p => rfl
  | n :: ns, p => by
    rw [compileNodes, resolve, compileNode_eq find? n p]
    cases hn : resolveNode find? n with
    | error e => rfl
    | ok f =>
      simp only [Except.map]
      rw [compileNodes_eq find? ns]
      cases hr : resolve find? ns with
      | error e => rfl
      | ok g => simp [Except.map, Forest.emit_append, toList_head?_emit hn]

end

theorem generate_eq (find? : String → Option Definition) (tree : List Node) :
    generate find? tree = (resolve find? tree).map fun f => f.emit .empty :=
  compileNodes_eq find? tree .empty

/-- What a tree generates is what its forest emits. -/
theorem generate_eq_ok_iff {tree : List Node} {result : List Call × Program} :
    generate find? tree = .ok result ↔ ∃ f, resolve find? tree = .ok f ∧ f.emit .empty = result := by
  rw [generate_eq]
  cases resolve find? tree <;> simp [Except.map]

end

end ScriptRunner.Script
