import ScriptRunner.Proofs.Script.Linking

/-!
# Generated programs nest like their trees

The function of a call has the own text of the node, filled with the calls of its own children (`Linked.exists_body`).
So a program unfolds, along the calls that were generated for the nodes, to the nested program that the tree is without
any sharing (`Forest.unfolds`).

Every function was emitted behind those that the children of its node call, but a node may share a function that was
emitted for another one. It then stands behind what its own children call if the two nodes agree on their own text and
this shows the calls (`Linked.idxOf_lt`), and need not otherwise (`shared_function_before_children`).
-/

namespace ScriptRunner.Script

/-! ## Nested programs -/

/-- A program whose blocks stand in place: each has a text and arguments of its own, what goes into it, and what comes
after it. -/
inductive Nested where
  | done
  | block (own : OwnText) (arguments : List String) (inner rest : Nested)

namespace OwnText

/-- The calls of children show in the text. -/
def takesCalls (t : OwnText) : Bool := t.isRaw || decide t.hasPlace

theorem fill_of_takesCalls_eq_false {t : OwnText} (h : t.takesCalls = false) (calls : List Call) :
    t.fill calls = t.fill [] := by
  obtain ⟨hraw, hplace⟩ : t.isRaw = false ∧ ¬ t.hasPlace := by simpa [takesCalls] using h
  match hps : pieces t.text, pieces_ne_nil t.text with
  | [l], _ => simp [fill, hraw, hps]
  | _ :: _ :: _, _ => exact absurd (by simp [hasPlace, hps]) hplace

/-- A text with a place shows whom the calls in it call. -/
theorem callees_of_fill {t : OwnText} (h : t.hasPlace) {cs ds : List Call} (hcs : ∀ c ∈ cs, c.Plain)
    (hds : ∀ d ∈ ds, d.Plain) (hfill : t.fill cs = t.fill ds) : cs.map Call.callee = ds.map Call.callee := by
  simp only [fill, h, not_true_eq_false, false_and, and_false, if_false] at hfill
  exact callees_of_callLines hcs hds (intercalate_injective h hfill)

end OwnText

/-- The calls unfold to the nested program: the function of each has the text of the block, filled with calls that
unfold to what goes into the block. -/
inductive Unfolds (p : Program) : List Call → Nested → Prop
  | done : Unfolds p [] .done
  | block {c : Call} {cs calls : List Call} {own : OwnText} {inner rest : Nested} {f : Function} :
      f ∈ p.functions → f.name = c.callee → f.body.toList = own.fill calls → (own.takesCalls = false → calls = []) →
      Unfolds p calls inner → Unfolds p cs rest → Unfolds p (c :: cs) (.block own c.arguments inner rest)

section
variable {find? : String → Option Definition}

/-- The nested program that a forest is without any sharing. -/
def Forest.nested : Forest find? → Nested
  | .nil => .done
  | .fragment _ rest => rest.nested
  | .call o children rest => .block o.own o.arguments (if o.own.takesCalls then children.nested else .done) rest.nested

variable {ss : List (Site find?)} {p : Program}

namespace Linked

/-- The function of a call has the own text of the node, filled with the calls of its own children. -/
theorem exists_body (h : Linked ss p) {s : Site find?} (hs : s ∈ ss) :
    ∃ f ∈ p.functions, f.name = s.call.callee ∧ f.body.toList = s.own.fill s.inner := by
  obtain ⟨t, ht, hemitted, -, -, hbody⟩ := h.first s hs
  refine ⟨t.function, hemitted.mem, firstCaller_callee ht, ?_⟩
  show t.body.toList = _
  rw [hbody]
  exact s.toOccurrence.toList_body s.inner

theorem count_callee (h : Linked ss p) {s : Site find?} (hs : s ∈ ss) : p.functionNames.count s.call.callee = 1 :=
  List.count_eq_one_of_mem h.nodup (h.callee_mem hs)

theorem plain (h : Linked ss p) {s : Site find?} (hs : s ∈ ss) : s.call.Plain where
  callee := h.names _ (h.callee_mem hs)
  arguments := by
    intro a ha
    rw [h.arguments s hs, Occurrence.arguments] at ha
    split at ha
    · exact absurd ha List.not_mem_nil
    · obtain ⟨b, hb, rfl⟩ := List.mem_map.1 ha
      exact feed_notMem_literal s.binds hb

theorem plain_inner (h : Linked ss p) {s : Site find?} (hs : s ∈ ss) : ∀ c ∈ s.inner, c.Plain := by
  intro c hc
  obtain ⟨t, ht, rfl⟩ := h.inner s hs c hc
  exact h.plain ht

/-- The function of a call stands behind those that the children of the node call, unless it was emitted for a node that
has another own text, or one that does not show the calls. -/
theorem idxOf_lt (h : Linked ss p) {s t : Site find?} (hs : s ∈ ss)
    (ht : firstCaller ss s.call.callee = some t)
    (hsame : s.isRaw = true ∨ t.inner = s.inner ∨ (t.own = s.own ∧ s.own.hasPlace)) {c : Call} (hc : c ∈ s.inner) :
    p.functionNames.idxOf c.callee < p.functionNames.idxOf s.call.callee := by
  obtain ⟨u, hu, hemitted, -, -, hbody⟩ := h.first s hs
  cases ht.symm.trans hu
  have horder : ∀ {c : Call}, c ∈ t.inner → p.functionNames.idxOf c.callee < p.functionNames.idxOf s.call.callee :=
    fun hc => firstCaller_callee ht ▸ hemitted.idxOf_lt h.nodup hc
  rcases hsame with hraw | hinner | ⟨hown, hplace⟩
  · exact (h.raw s hs hraw).idxOf_lt h.nodup hc
  · exact horder (hinner ▸ hc)
  · -- the own text shows the calls that it was filled with
    have hfill : s.own.fill t.inner = s.own.fill s.inner := by
      have hbodies := congrArg String.toList hbody
      rw [Site.body, Site.body, Occurrence.toList_body, Occurrence.toList_body, hown] at hbodies
      exact hbodies
    have hcallees := OwnText.callees_of_fill hplace (h.plain_inner (firstCaller_mem ht)) (h.plain_inner hs) hfill
    obtain ⟨d, hd, hdc⟩ := List.mem_map.1 (hcallees ▸ List.mem_map_of_mem (f := Call.callee) hc)
    exact hdc ▸ horder hd

end Linked

/-- A forest unfolds in every program that has the functions of its sites. -/
theorem Forest.unfolds {q : Program} (f : Forest find?) : ∀ {p : Program},
    (∀ s ∈ f.sites p, s.call.arguments = s.arguments ∧
      ∃ g ∈ q.functions, g.name = s.call.callee ∧ g.body.toList = s.own.fill s.inner) →
    Unfolds q (f.emit p).1 f.nested := by
  induction f with
  | nil => exact fun _ => .done
  | fragment o rest ih => exact fun h => ih h
  | call o children rest ihChildren ihRest =>
    intro p h
    obtain ⟨harguments, g, hg, hname, hbody⟩ := h _ (List.mem_append_right _ List.mem_cons_self)
    have hrest := ihRest fun s hs => h s (List.mem_append_right _ (List.mem_cons_of_mem _ hs))
    have hchildren := ihChildren fun s hs => h s (List.mem_append_left _ hs)
    show Unfolds q (_ :: _) (.block o.own o.arguments _ _)
    rw [← show (o.link (children.emit p).1 (children.emit p).2).1.arguments = o.arguments from harguments]
    cases htakes : o.own.takesCalls with
    | true =>
      refine .block hg hname hbody (fun hf => ?_) hchildren hrest
      rw [htakes] at hf
      cases hf
    | false =>
      -- the calls of the children are lost, so nothing goes into the block
      exact .block hg hname (hbody.trans (OwnText.fill_of_takesCalls_eq_false htakes _)) (fun _ => rfl) .done hrest

/-- **A generated program nests like its tree.** Take a tree that compiles. The function of every call is there once,
and its body is the own text of the node, filled in one pass with the calls of the node's own children. It stands behind
the functions that these call, if the node is raw or makes the calls of the first node that calls the function, as it
does if both have the same own text and this shows the calls; and every function was emitted for a node of which this is
so. Along the calls of the nodes the run block unfolds to the nested program that the tree is without any sharing. -/
theorem program_nests_like_tree {tree : List Node} {calls : List Call} {p : Program}
    (h : generate find? tree = .ok (calls, p)) :
    ∃ forest : Forest find?, resolve find? tree = .ok forest ∧ forest.emit .empty = (calls, p) ∧
      let sites := forest.sites .empty
      (∀ s ∈ sites, p.functionNames.count s.call.callee = 1 ∧
        ∃ f ∈ p.functions, f.name = s.call.callee ∧ f.body.toList = s.own.fill s.inner) ∧
      (∀ s ∈ sites, ∀ t, firstCaller sites s.call.callee = some t →
        (s.isRaw = true ∨ t.inner = s.inner ∨ (t.own = s.own ∧ s.own.hasPlace)) →
          ∀ c ∈ s.inner, p.functionNames.idxOf c.callee < p.functionNames.idxOf s.call.callee) ∧
      (∀ f ∈ p.functions, ∃ s ∈ sites, s.function = f ∧
        ∀ c ∈ s.inner, p.functionNames.idxOf c.callee < p.functionNames.idxOf f.name) ∧
      Unfolds p calls forest.nested := by
  obtain ⟨forest, hresolve, hemit⟩ := generate_eq_ok_iff.1 h
  have hlinked := Forest.linked hemit
  refine ⟨forest, hresolve, hemit, fun s hs => ⟨hlinked.count_callee hs, hlinked.exists_body hs⟩,
    fun s hs t ht hsame c hc => hlinked.idxOf_lt hs ht hsame hc, fun f hf => ?_, ?_⟩
  · obtain ⟨s, hs, rfl, hemitted⟩ := hlinked.origin f hf
    exact ⟨s, hs, rfl, fun c hc => hemitted.idxOf_lt hlinked.nodup hc⟩
  · have hunfolds := forest.unfolds (p := .empty) fun s hs => ⟨hlinked.arguments s hs, hlinked.exists_body hs⟩
    rw [hemit] at hunfolds
    exact hunfolds

end

/-! ## An order that sharing breaks -/

/-- A template without parameters. -/
def plainTemplate (name body : String) : Definition :=
  { Definition.rawSource name "" with kind := .template, params := [], body := body }

def plainTemplates (name : String) : Option Definition :=
  [plainTemplate "Group" "start();\n%body%", plainTemplate "Stop" "return 1;", plainTemplate "Greet" "return 2;"].find?
    fun d => d.name == name

def plainNode (name : String) (children : List Node) : Node := ⟨name, .empty, children, false⟩

/-- A group of two nodes, before a node that shares its function with one of them. -/
theorem group_nests_like_tree :
    ∃ (calls : List Call) (p : Program),
      generate plainTemplates [plainNode "Group" [plainNode "Greet" [], plainNode "Stop" []], plainNode "Greet" []] =
        .ok (calls, p) ∧ p.functionNames = ["greet", "stop", "group"] ∧
      let stop : OwnText := ⟨false, "return 1;".toList⟩
      let greet : OwnText := ⟨false, "return 2;".toList⟩
      Unfolds p calls (.block ⟨false, "start();\n%body%".toList⟩ [] (.block greet [] .done (.block stop [] .done .done))
        (.block greet [] .done .done)) := by
  obtain ⟨forest, hresolve, hemit, -, -, -, hunfolds⟩ :=
    @program_nests_like_tree plainTemplates
      [plainNode "Group" [plainNode "Greet" [], plainNode "Stop" []], plainNode "Greet" []] _ _ rfl
  cases hresolve
  exact ⟨_, _, rfl, rfl, hunfolds⟩

/-- The second `Stop` shares the function of the first, which is there before the function of its child. -/
theorem shared_function_before_children :
    ¬ ∀ (find? : String → Option Definition) (tree : List Node) (calls : List Call) (p : Program),
      generate find? tree = .ok (calls, p) → ∀ forest : Forest find?, resolve find? tree = .ok forest →
        ∀ s ∈ forest.sites .empty, ∀ c ∈ s.inner,
          p.functionNames.idxOf c.callee < p.functionNames.idxOf s.call.callee := by
  intro h
  have horder := h plainTemplates [plainNode "Stop" [], plainNode "Stop" [plainNode "Greet" []]] _ _ rfl _ rfl
  have hlast := horder _ (List.mem_cons_of_mem _ (List.mem_cons_of_mem _ List.mem_cons_self)) _ List.mem_cons_self
  revert hlast
  decide

end ScriptRunner.Script
