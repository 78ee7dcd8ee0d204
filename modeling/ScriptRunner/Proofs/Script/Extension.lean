import ScriptRunner.Proofs.Script.Callees

/-!
# Programs grow at the end

Whatever a node adds to a program stands behind what is there, and nothing of that is touched (`Program.Extends`). This
holds of every operation on a program, hence of a whole forest (`Forest.extends_emit`). Nodes that follow others are
compiled from the program that these leave (`compileNodes_append`), so all that has been generated for a tree stays as
it is when more nodes follow (`compilation_is_stable_under_extension`).
-/

namespace ScriptRunner.Script

namespace Program

/-- The program `q` has all of `p`, in its place, and what is new behind it; numbers go on from where they were. -/
structure Extends (p q : Program) : Prop where
  fragments : p.fragments <+: q.fragments
  functions : p.functions <+: q.functions
  shared : p.shared <+: q.shared
  counter : p.counter ≤ q.counter

namespace Extends

variable {p q r : Program}

theorem refl (p : Program) : p.Extends p :=
  ⟨List.prefix_rfl, List.prefix_rfl, List.prefix_rfl, Nat.le_refl _⟩

theorem trans (hpq : p.Extends q) (hqr : q.Extends r) : p.Extends r where
  fragments := hpq.fragments.trans hqr.fragments
  functions := hpq.functions.trans hqr.functions
  shared := hpq.shared.trans hqr.shared
  counter := hpq.counter.trans hqr.counter

end Extends

/-! ## Operations -/

variable (p : Program) (base body : String) (parameters : List String)

theorem extends_addFragment (code : String) : p.Extends (p.addFragment code) :=
  ⟨List.prefix_append _ _, List.prefix_rfl, List.prefix_rfl, Nat.le_refl _⟩

/-- The search for a free number never goes back. -/
theorem extends_linkNumbered : p.Extends (p.linkNumbered base parameters body).2 where
  fragments := List.prefix_rfl
  functions := List.prefix_append _ _
  shared := List.prefix_rfl
  counter := (Nat.le_succ p.counter).trans (le_freeSuffix base p.functionNames (p.counter + 1))

theorem extends_linkNamed : p.Extends (p.linkNamed base parameters body).2 := by
  unfold linkNamed
  split
  · exact p.extends_linkNumbered base body parameters
  · exact ⟨List.prefix_rfl, List.prefix_append _ _, List.prefix_rfl, Nat.le_refl _⟩

theorem extends_linkTemplate : p.Extends (p.linkTemplate base parameters body).2 := by
  unfold linkTemplate
  split
  · exact .refl p
  · have hnamed := p.extends_linkNamed base body parameters
    exact ⟨hnamed.fragments, hnamed.functions, hnamed.shared.trans (List.prefix_append _ _), hnamed.counter⟩

end Program

section
variable {find? : String → Option Definition}

theorem Occurrence.extends_link (o : Occurrence find?) (inner : List Call) (p : Program) :
    p.Extends (o.link inner p).2 := by
  cases h : o.isRaw with
  | true =>
    rw [o.link_of_raw h]
    exact p.extends_linkNumbered o.base (o.body inner) o.parameters
  | false =>
    rw [o.link_of_template h]
    exact p.extends_linkTemplate o.base (o.body inner) o.parameters

/-! ## Trees -/

/-- **A forest only adds to a program**, at every depth. -/
theorem Forest.extends_emit (f : Forest find?) (p : Program) : p.Extends (f.emit p).2 := by
  induction f generalizing p with
  | nil => exact .refl p
  | fragment o rest ih => exact (p.extends_addFragment o.code).trans (ih _)
  | call o children rest ihChildren ihRest =>
    exact ((ihChildren p).trans (o.extends_link _ _)).trans (ihRest _)

theorem compileNodes_extends {ns : List Node} {calls : List Call} {p q : Program}
    (h : compileNodes find? ns p = .ok (calls, q)) : p.Extends q := by
  rw [compileNodes_eq] at h
  obtain ⟨f, -, hemit⟩ := map_eq_ok_iff.1 h
  have hextends := f.extends_emit p
  rw [hemit] at hextends
  exact hextends

/-- Nodes that follow others are compiled from the program that these leave. -/
theorem compileNodes_append (as bs : List Node) (p : Program) :
    compileNodes find? (as ++ bs) p =
      (compileNodes find? as p).bind fun first =>
        (compileNodes find? bs first.2).map fun more => (first.1 ++ more.1, more.2) := by
  induction as generalizing p with
  | nil =>
    show compileNodes find? bs p = (compileNodes find? bs p).map fun more => ([] ++ more.1, more.2)
    cases compileNodes find? bs p <;> rfl
  | cons n as ih =>
    rw [List.cons_append, compileNodes, compileNodes]
    cases compileNode find? n p with
    | error e => rfl
    | ok head =>
      obtain ⟨call, q⟩ := head
      simp only [ih]
      cases compileNodes find? as q with
      | error e => rfl
      | ok first =>
        simp only [Except.bind]
        cases compileNodes find? bs first.2 with
        | error e => rfl
        | ok more => simp [Except.map]

theorem compileNodes_append_eq_ok_iff {as bs : List Node} {calls : List Call} {p q : Program} :
    compileNodes find? (as ++ bs) p = .ok (calls, q) ↔
      ∃ first r more, compileNodes find? as p = .ok (first, r) ∧ compileNodes find? bs r = .ok (more, q) ∧
        calls = first ++ more := by
  rw [compileNodes_append]
  constructor
  · intro h
    obtain ⟨⟨first, r⟩, hfirst, h⟩ := bind_eq_ok_iff.1 h
    obtain ⟨⟨more, q'⟩, hmore, h⟩ := map_eq_ok_iff.1 h
    obtain ⟨rfl, rfl⟩ := Prod.mk.inj h
    exact ⟨first, r, more, hfirst, hmore, rfl⟩
  · rintro ⟨first, r, more, hfirst, hmore, rfl⟩
    exact bind_eq_ok_iff.2 ⟨_, hfirst, map_eq_ok_iff.2 ⟨_, hmore, rfl⟩⟩

/-- **More nodes leave what there is as it is.** If a tree compiles with more nodes behind it, it compiles by itself,
and the longer tree gives what these nodes give on top of its program. Its fragments, its functions, as data and as
text, and its calls are the first ones of the longer tree, and so are the entries of the table of shared bodies. -/
theorem compilation_is_stable_under_extension {as bs : List Node} {text : String}
    (h : compile find? (as ++ bs) = .ok text) :
    ∃ (calls all : List Call) (p q : Program),
      generate find? as = .ok (calls, p) ∧ compile find? as = .ok (p.text (calls.map Call.text)) ∧
      generate find? (as ++ bs) = .ok (all, q) ∧ text = q.text (all.map Call.text) ∧
      (∃ more, compileNodes find? bs p = .ok (more, q) ∧ all = calls ++ more) ∧
      p.fragments <+: q.fragments ∧ p.functions <+: q.functions ∧
      p.functions.map Function.text <+: q.functions.map Function.text ∧
      calls <+: all ∧ calls.map Call.text <+: all.map Call.text ∧
      p.shared <+: q.shared ∧ p.counter ≤ q.counter := by
  obtain ⟨⟨all, q⟩, hall, rfl⟩ := map_eq_ok_iff.1 h
  obtain ⟨calls, p, more, hcalls, hmore, rfl⟩ := compileNodes_append_eq_ok_iff.1 hall
  have hextends := compileNodes_extends hmore
  have hprefix : calls <+: calls ++ more := List.prefix_append calls more
  have hcompile : compile find? as = .ok (p.text (calls.map Call.text)) := by
    rw [compile, generate, hcalls]
    rfl
  exact ⟨calls, calls ++ more, p, q, hcalls, hcompile, hall, rfl, ⟨more, hmore, rfl⟩, hextends.fragments,
    hextends.functions, hextends.functions.map _, hprefix, hprefix.map _, hextends.shared, hextends.counter⟩

end

/-- A free fragment, a template and raw code. -/
def leadingNodes : List Node :=
  [⟨"source", .ofList [(inlineParam, "true"), (sourceParam, "let n;")], [], false⟩, plainNode "Group" [],
    codeNode "a();"]

def followingNodes : List Node := [plainNode "Group" [codeNode "a();"], plainNode "Group" []]

/-- The nodes that follow take the next numbers, and share what is there. -/
theorem numbers_go_on_in_longer_tree :
    ∃ (calls all : List Call) (p q : Program),
      generate numberedScripts leadingNodes = .ok (calls, p) ∧
      generate numberedScripts (leadingNodes ++ followingNodes) = .ok (all, q) ∧
      p.fragments <+: q.fragments ∧ p.functions <+: q.functions ∧ calls <+: all ∧
      p.functionNames = ["group", "source_1"] ∧ q.functionNames = ["group", "source_1", "source_2", "group_3"] := by
  have hfirst : (generate numberedScripts leadingNodes).map (fun r => r.2.functionNames) =
      .ok ["group", "source_1"] := by decide +kernel
  have hlonger : (generate numberedScripts (leadingNodes ++ followingNodes)).map (fun r => r.2.functionNames) =
      .ok ["group", "source_1", "source_2", "group_3"] := by decide +kernel
  obtain ⟨⟨all, q⟩, hgenerate, hnames⟩ := map_eq_ok_iff.1 hlonger
  have hcompile : compile numberedScripts (leadingNodes ++ followingNodes) = .ok (q.text (all.map Call.text)) := by
    rw [compile, hgenerate]
    rfl
  obtain ⟨calls, all', p, q', hcalls, -, hsame, -, -, hfragments, hfunctions, -, hprefix, -⟩ :=
    compilation_is_stable_under_extension hcompile
  cases hgenerate.symm.trans hsame
  rw [hcalls] at hfirst
  exact ⟨calls, all, p, q, hcalls, hgenerate, hfragments, hfunctions, hprefix, Except.ok.inj hfirst, hnames⟩

end ScriptRunner.Script
