import ScriptRunner.Proofs.Script.Identifiers
import ScriptRunner.Proofs.Script.Nesting

/-!
# Names in use

A call names a function by the base name of its node or by this name with a number, and raw code always by the latter
(`Site.IsNamed`). The plain base name of a template is in use from its first node on, whoever has it
(`Named.bases`). So the names of all functions are legal identifiers, and no two functions have one name
(`functions_have_distinct_identifiers`).
-/

namespace ScriptRunner.Script

section
variable {find? : String → Option Definition}

/-! ## One node -/

namespace Program

/-- A base name is in use once it has been linked. -/
theorem base_mem_linkNamed (p : Program) (base : String) (parameters : List String) (body : String) :
    base ∈ (p.linkNamed base parameters body).2.functionNames := by
  have hadds := (p.linkNamed_spec base parameters body).1
  rw [hadds.functionNames, List.mem_append]
  unfold linkNamed
  split
  · rename_i h
    exact .inl (isLinked_eq_true_iff.1 h)
  · exact .inr List.mem_cons_self

end Program

namespace Occurrence

/-- A node is linked to the function that it shares, or to one of its base name, plain or with a number. -/
theorem callee_cases (o : Occurrence find?) (inner : List Call) (p : Program) :
    let callee := (o.link inner p).1.callee
    (o.isRaw = false ∧ p.shared? o.base (o.body inner) = some callee) ∨ (o.isRaw = false ∧ callee = o.base) ∨
      ∃ n, callee = Program.suffixed o.base n := by
  cases hraw : o.isRaw with
  | true =>
    rw [o.link_of_raw hraw]
    exact .inr (.inr (p.linkNumbered_spec o.base o.parameters (o.body inner)).2.2)
  | false =>
    rw [o.link_of_template hraw]
    rcases p.linkTemplate_cases o.base o.parameters (o.body inner) with ⟨hfound, -⟩ | ⟨-, -, -, hname | hname⟩
    · exact .inl ⟨rfl, hfound⟩
    · exact .inr (.inl ⟨rfl, hname⟩)
    · exact .inr (.inr hname)

/-- Linking keeps the names in use. -/
theorem mem_functionNames_link (o : Occurrence find?) (inner : List Call) {p : Program} {name : String}
    (h : name ∈ p.functionNames) : name ∈ (o.link inner p).2.functionNames := by
  obtain ⟨-, ⟨-, -, hsame⟩ | ⟨hadds, -, -⟩⟩ := o.link_cases inner p
  · rw [hsame]
    exact h
  · rw [hadds.functionNames]
    exact List.mem_append_left _ h

/-- A template that does not share a function leaves its base name in use. -/
theorem base_mem_link (o : Occurrence find?) (inner : List Call) {p : Program} (hraw : o.isRaw = false)
    (hnone : p.shared? o.base (o.body inner) = none) : o.base ∈ (o.link inner p).2.functionNames := by
  rw [o.link_of_template hraw, Program.linkTemplate, hnone]
  exact p.base_mem_linkNamed o.base o.parameters (o.body inner)

end Occurrence

/-! ## Many nodes -/

/-- The function of the site has its base name, plain or with a number; only a template has it plain. -/
def Site.IsNamed (s : Site find?) : Prop :=
  (s.isRaw = false ∧ s.call.callee = s.base) ∨ ∃ n, s.call.callee = Program.suffixed s.base n

/-- The names in use once the sites have been linked. -/
structure Named (ss : List (Site find?)) (p : Program) : Prop where
  names : ∀ s ∈ ss, s.IsNamed
  bases : ∀ s ∈ ss, s.isRaw = false → s.base ∈ p.functionNames

namespace Named

variable {ss : List (Site find?)} {p : Program}

theorem empty : Named ([] : List (Site find?)) .empty where
  names := nofun
  bases := nofun

theorem link (h : Named ss p) (hlinked : Linked ss p) (o : Occurrence find?) (inner : List Call) :
    Named (ss ++ [⟨o, inner, (o.link inner p).1⟩]) (o.link inner p).2 := by
  have hkeep : ∀ s ∈ ss, s.isRaw = false → s.base ∈ (o.link inner p).2.functionNames := fun s hs hraw =>
    o.mem_functionNames_link inner (h.bases s hs hraw)
  constructor
  · refine Linked.forall_mem_concat h.names ?_
    rcases o.callee_cases inner p with ⟨hraw, hfound⟩ | hplain | hnumbered
    · -- the function has the name that an earlier template of the same base name gave it
      obtain ⟨t, ht, htraw, hbase, -, hcallee⟩ := hlinked.table hfound
      have hnamed := h.names t ht
      rw [Site.IsNamed, htraw, hbase, hcallee] at hnamed
      exact hnamed.imp (fun hplain => ⟨hraw, hplain.2⟩) id
    · exact .inl hplain
    · exact .inr hnumbered
  · refine Linked.forall_mem_concat hkeep fun (hraw : o.isRaw = false) => ?_
    show o.base ∈ _
    cases hfound : p.shared? o.base (o.body inner) with
    | none => exact o.base_mem_link inner hraw hfound
    | some name =>
      obtain ⟨t, ht, htraw, hbase, -⟩ := hlinked.table hfound
      exact hbase ▸ hkeep t ht htraw

end Named

theorem Forest.named {f : Forest find?} {calls : List Call} {p : Program} (h : f.emit .empty = (calls, p)) :
    Named (f.sites .empty) p :=
  Forest.sites_induction Named.empty (fun _ h => ⟨h.names, h.bases⟩)
    (fun o inner hlinked _ h => h.link hlinked o inner) h

/-! ## All functions -/

theorem Site.IsNamed.isIdentifier {s : Site find?} (h : s.IsNamed) : IsIdentifier s.call.callee := by
  have hbase : IsIdentifier s.base := isIdentifier_identifier s.definition.name
  rcases h with ⟨-, hplain⟩ | ⟨n, hnumbered⟩
  · exact hplain ▸ hbase
  · exact hnumbered ▸ isIdentifier_suffixed hbase n

/-- **Generated functions have names of their own, and legal ones.** -/
theorem functions_have_distinct_identifiers {tree : List Node} {text : String} (h : compile find? tree = .ok text) :
    ∃ calls p, generate find? tree = .ok (calls, p) ∧ text = p.text (calls.map Call.text) ∧ p.functionNames.Nodup ∧
      ∀ f ∈ p.functions, IsIdentifier f.name := by
  obtain ⟨⟨calls, p⟩, hgenerate, rfl⟩ := map_eq_ok_iff.1 h
  obtain ⟨forest, -, hemit⟩ := generate_eq_ok_iff.1 hgenerate
  refine ⟨calls, p, hgenerate, rfl, (Forest.linked hemit).nodup, ?_⟩
  intro f hf
  obtain ⟨s, hs, rfl, -⟩ := (Forest.linked hemit).origin f hf
  exact ((Forest.named hemit).names s hs).isIdentifier

end

/-- A node that brings its code along. -/
def codeNode (code : String) : Node := ⟨"source", .ofList [(sourceParam, code)], [], false⟩

/-- Scripts that are named like others with a number behind. -/
def numberedScripts (name : String) : Option Definition :=
  [plainTemplate "group_1" "one();", plainTemplate "Group" "start();\n%body%", plainTemplate "source_1" "two();",
    Definition.rawSource "source" "Source code"].find? fun d => d.name == name

def numberedTree : List Node :=
  [plainNode "group_1" [], plainNode "Group" [], plainNode "Group" [plainNode "source_1" [], codeNode "a();"],
    codeNode "a();"]

/-- Numbers go around the names that look as if they had one. -/
theorem numbered_names_stay_distinct :
    ∃ calls p, generate numberedScripts numberedTree = .ok (calls, p) ∧
      p.functionNames = ["group_1", "group", "source_1", "source_2", "group_3", "source_4"] ∧ p.functionNames.Nodup ∧
      ∀ f ∈ p.functions, IsIdentifier f.name := by
  have hnames : (generate numberedScripts numberedTree).map (fun r => r.2.functionNames) =
      .ok ["group_1", "group", "source_1", "source_2", "group_3", "source_4"] := by decide +kernel
  obtain ⟨⟨calls, p⟩, hgenerate, hnames⟩ := map_eq_ok_iff.1 hnames
  have hcompile : compile numberedScripts numberedTree = .ok (p.text (calls.map Call.text)) := by
    rw [compile, hgenerate]
    rfl
  obtain ⟨calls', p', hsame, -, hnodup, hlegal⟩ := functions_have_distinct_identifiers hcompile
  cases hgenerate.symm.trans hsame
  exact ⟨calls, p, hgenerate, hnames, hnodup, hlegal⟩

end ScriptRunner.Script
