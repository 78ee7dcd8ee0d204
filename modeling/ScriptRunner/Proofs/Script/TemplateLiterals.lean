import ScriptRunner.Proofs.Script.Callees
import ScriptRunner.Proofs.Script.Layout

/-!
# Template literals in functions

A template literal may go over several lines of the user's code. Laying out a function puts the indentation in front of
each of its lines, and a literal then holds what `indentedLiteral` says (`Function.holdsAt_text`): a line that begins in
it starts with the indentation, blank lines in it are empty, and carriage returns at the ends of its lines are gone. The
last of its lines always gains the indentation, so a literal has the characters and the value that the user wrote exactly
if it stands on one line (`template_literals_survive_iff`).
-/

namespace ScriptRunner.Script

/-! ## Literals -/

def backtick : Char := '\x60'

/-- The characters of a template literal in which nothing is escaped or filled in. -/
structure PlainLiteral (l : List Char) : Prop where
  backtick : backtick ∉ l
  backslash : '\\' ∉ l
  substitution : ¬ ['$', '\x7b'] <:+: l
  place : hasPlaceholder l = false

/-- The literal stands in the text between two backticks, behind so many others. -/
def HoldsAt (n : Nat) (literal text : List Char) : Prop :=
  ∃ before after, text = before ++ backtick :: (literal ++ backtick :: after) ∧ before.count backtick = n

/-- The value of a plain literal: a line of it ends with a line feed, however the code ends its lines. -/
def templateValue : List Char → List Char
  | [] => []
  | '\r' :: '\n' :: r => '\n' :: templateValue r
  | '\r' :: r => '\n' :: templateValue r
  | c :: r => c :: templateValue r

/-- What stands in a function for a literal. -/
def indentedLiteral (l : List Char) : List Char :=
  match Text.lines (Text.closedLines l) with
  | [] => Text.openLine l
  | m :: ms => m ++ '\n' :: (insetLines ms ++ (indentation.toList ++ Text.openLine l))

section
variable {l m : List Char} {n : Nat}

/-- One literal stands between two backticks. -/
theorem HoldsAt.unique {text : List Char} (hl : backtick ∉ l) (hm : backtick ∉ m) (h : HoldsAt n l text)
    (h' : HoldsAt n m text) : l = m := by
  obtain ⟨before, after, htext, hbefore⟩ := h
  obtain ⟨before', after', htext', hbefore'⟩ := h'
  obtain ⟨-, hrest⟩ := append_cons_inj_of_count (htext.symm.trans htext') (hbefore.trans hbefore'.symm)
  exact (append_cons_inj_of_count hrest (by rw [List.count_eq_zero.2 hl, List.count_eq_zero.2 hm])).1

/-! ## Values -/

/-- A line feed sets what follows it apart. -/
theorem templateValue_append_feed (cs : List Char) :
    ∃ es, ∀ ds, templateValue (cs ++ '\n' :: ds) = es ++ '\n' :: templateValue ds := by
  induction cs using templateValue.induct with
  | case1 => exact ⟨[], fun ds => by simp [templateValue]⟩
  | case2 r ih =>
    obtain ⟨es, hes⟩ := ih
    exact ⟨'\n' :: es, fun ds => by simp [templateValue, hes]⟩
  | case3 r hr ih =>
    obtain ⟨es, hes⟩ := ih
    cases r with
    | nil => exact ⟨[], fun ds => by simp [templateValue]⟩
    | cons d r =>
      refine ⟨'\n' :: es, fun ds => ?_⟩
      have hd : d ≠ '\n' := fun he => hr r (by rw [he])
      have hnot : ∀ r', d :: r ++ '\n' :: ds = '\n' :: r' → False := fun r' he => hd (List.cons.inj he).1
      rw [List.cons_append, templateValue.eq_3 _ hnot, hes, List.cons_append]
  | case4 c r _ hreturn ih =>
    obtain ⟨es, hes⟩ := ih
    refine ⟨c :: es, fun ds => ?_⟩
    rw [List.cons_append, templateValue.eq_4 _ _ (fun _ he _ => hreturn he) hreturn, hes, List.cons_append]

theorem templateValue_indentation (cs : List Char) :
    templateValue (indentation.toList ++ cs) = indentation.toList ++ templateValue cs := rfl

/-! ## Literals behind the indentation -/

theorem indentedLiteral_of_feed_notMem (h : '\n' ∉ l) : indentedLiteral l = l := by
  rw [indentedLiteral, Text.closedLines_of_feed_notMem h, Text.openLine_of_feed_notMem h]
  rfl

theorem filter_indentedLiteral (l : List Char) : (indentedLiteral l).filter isVisible = l.filter isVisible := by
  have hfeed : isVisible '\n' = false := by decide
  have hindentation : indentation.toList.filter isVisible = [] := by decide
  have hl := congrArg (List.filter isVisible) (Text.closedLines_append_openLine l)
  rw [List.filter_append, ← filter_flatten_lines (Text.closedLines l)] at hl
  rw [← hl, indentedLiteral]
  cases Text.lines (Text.closedLines l) with
  | nil => rfl
  | cons m ms => simp [filter_insetLines, hfeed, hindentation]

theorem backtick_notMem_indentedLiteral (h : backtick ∉ l) : backtick ∉ indentedLiteral l := by
  have hvisible : isVisible backtick = true := by decide
  rwa [← List.count_eq_zero, count_eq_of_filter_eq hvisible (filter_indentedLiteral l), List.count_eq_zero]

/-- The last line of a literal that goes over several lines starts with the indentation. -/
theorem exists_indentedLiteral_eq (h : '\n' ∈ l) :
    ∃ es, indentedLiteral l = es ++ '\n' :: (indentation.toList ++ Text.openLine l) := by
  have hclosed : Text.closedLines l ≠ [] := by
    obtain ⟨ds, hds⟩ := Text.closedLines_of_feed_mem h
    simp [hds]
  obtain ⟨m, ms, hms⟩ := List.exists_cons_of_ne_nil (Text.lines_ne_nil hclosed)
  rw [indentedLiteral, hms]
  obtain rfl | ⟨ks, k, rfl⟩ := List.eq_nil_or_concat ms
  · exact ⟨m, rfl⟩
  · refine ⟨m ++ '\n' :: (insetLines ks ++ indentLine k), ?_⟩
    simp [insetLines]

/-- Indenting a literal that goes over several lines changes its value. -/
theorem templateValue_indentedLiteral_ne (h : '\n' ∈ l) : templateValue (indentedLiteral l) ≠ templateValue l := by
  obtain ⟨es, hes⟩ := exists_indentedLiteral_eq h
  obtain ⟨ds, hds⟩ := Text.closedLines_of_feed_mem h
  have hl : l = ds ++ '\n' :: Text.openLine l := by
    rw [← List.singleton_append, ← List.append_assoc, ← hds, Text.closedLines_append_openLine]
  obtain ⟨es', hindented⟩ := templateValue_append_feed es
  obtain ⟨ds', hwritten⟩ := templateValue_append_feed ds
  intro he
  rw [hes, hindented, templateValue_indentation, hl, hwritten, ← hl] at he
  -- Both end with the value of the last line; what stands before it ends with a blank here and a line feed there.
  have hboth : es' ++ '\n' :: indentation.toList ++ templateValue (Text.openLine l) =
      ds' ++ ['\n'] ++ templateValue (Text.openLine l) := by
    simpa using he
  have hlast := congrArg List.getLast? (List.append_cancel_right hboth)
  simp [indentation] at hlast

theorem templateValue_indentedLiteral_iff : templateValue (indentedLiteral l) = templateValue l ↔ '\n' ∉ l := by
  constructor
  · exact fun he h => templateValue_indentedLiteral_ne h he
  · intro h
    rw [indentedLiteral_of_feed_notMem h]

theorem indentedLiteral_eq_self_iff : indentedLiteral l = l ↔ '\n' ∉ l := by
  constructor
  · intro he
    rw [← templateValue_indentedLiteral_iff, he]
  · exact indentedLiteral_of_feed_notMem

/-! ## Literals in functions -/

theorem unbroken_backtick : Text.Unbroken [backtick] := ⟨by decide, List.cons_ne_nil _ _, by decide⟩

theorem indentLine_of_backtick (cs ds : List Char) :
    indentLine (cs ++ backtick :: ds) = indentation.toList ++ (cs ++ backtick :: ds) :=
  indentLine_of_mem (List.mem_append_right cs List.mem_cons_self) (by decide)

/-- The lines of a text that holds a literal, when they are indented. -/
theorem insetLines_literal (before l after : List Char) :
    ∃ front back, insetLines (Text.lines (before ++ backtick :: (l ++ backtick :: after))) =
      front ++ backtick :: (indentedLiteral l ++ backtick :: back) ∧ front.count backtick = before.count backtick := by
  have hopening := unbroken_backtick.lines_of_append before (l ++ backtick :: after)
  have hclosing := unbroken_backtick.lines_of_append l after
  simp only [List.singleton_append, List.append_assoc] at hopening hclosing
  refine ⟨insetLines (Text.lines (Text.closedLines before)) ++ (indentation.toList ++ Text.openLine before),
    (Text.lines after).headD [] ++ '\n' :: insetLines (Text.lines after).tail, ?_, ?_⟩
  · rw [hopening, hclosing, insetLines_append, insetLines_cons, indentLine_of_backtick, indentedLiteral]
    cases Text.lines (Text.closedLines l) with
    | nil => simp
    | cons m ms => simp [insetLines_append, insetLines_cons, indentLine_of_backtick]
  · have hindentation : indentation.toList.count backtick = 0 := by decide
    rw [List.count_append, List.count_append, count_insetLines_lines (by decide), hindentation, Nat.zero_add,
      ← List.count_append, Text.closedLines_append_openLine]

/-- A function holds the indented literal in the place of the literal. -/
theorem Function.holdsAt_text {f : Function} {before l after : List Char}
    (hbody : f.body.toList = before ++ backtick :: (l ++ backtick :: after)) (hhead : backtick ∉ f.head.toList) :
    HoldsAt (before.count backtick) (indentedLiteral l) f.text.toList := by
  have hvisible : isVisible backtick = true := by decide
  have hmem : backtick ∈ f.body.toList := hbody ▸ List.mem_append_right before List.mem_cons_self
  have hfeed : decide (backtick = '\n') = false := by decide
  have hlines : f.bodyLines = Text.lines (before.dropWhile (· = '\n') ++
      backtick :: (l ++ backtick :: Text.stripEnd (· = '\n') after)) := by
    rw [bodyLines, hbody, Text.strip_append_cons hfeed, Text.stripEnd_append_cons hfeed]
  obtain ⟨front, back, hinset, hcount⟩ := insetLines_literal (before.dropWhile (· = '\n')) l
    (Text.stripEnd (· = '\n') after)
  refine ⟨f.head.toList ++ '\n' :: front, back ++ ['\x7d', '\n'], ?_, ?_⟩
  · rw [f.toList_text hmem hvisible, hlines, hinset]
    simp
  · have hbefore : (before.dropWhile (· = '\n')).count backtick = before.count backtick := by
      refine count_eq_of_filter_eq hvisible (Text.filter_dropWhile fun c hc => ?_)
      rw [of_decide_eq_true hc]
      rfl
    rw [List.count_append, List.count_eq_zero.2 hhead, Nat.zero_add, List.count_cons_of_ne (by decide), hcount, hbefore]

/-- Filling a text keeps its literals. -/
theorem OwnText.exists_fill_eq {t : OwnText} {before l after : List Char} (hl : PlainLiteral l)
    (ht : t.text = before ++ backtick :: (l ++ backtick :: after)) (calls : List Call) :
    ∃ rest, t.fill calls =
      fillBody (callLines calls) before ++ backtick :: (l ++ backtick :: rest) := by
  have hbacktick : backtick ∉ placeholder.toList := by decide
  have htext : fillBody (callLines calls) t.text =
      fillBody (callLines calls) before ++ backtick :: (l ++ backtick :: fillBody (callLines calls) after) := by
    rw [ht, fillBody_append_cons hbacktick, fillBody_append_cons hbacktick,
      fillBody_of_hasPlaceholder_eq_false hl.place]
  unfold OwnText.fill
  split
  · rename_i hnew
    have hplace : hasPlaceholder t.text = false := by
      rw [← Bool.not_eq_true, hasPlaceholder_eq_true_iff]
      exact hnew.2.1
    rw [fillBody_of_hasPlaceholder_eq_false hplace] at htext
    exact ⟨fillBody (callLines calls) after ++ '\n' :: callLines calls, by rw [htext]; simp⟩
  · rw [← fillBody_eq]
    exact ⟨_, htext⟩

end

section
variable {find? : String → Option Definition} {ss : List (Site find?)} {p : Program}

/-- The first line of a function has no other characters than those of names and of the words around them. -/
theorem Linked.notMem_head (h : Linked ss p) {f : Function} (hf : f ∈ p.functions) {c : Char}
    (hc : isNameChar c = false) (hwords : c ∉ "function (, ) \x7b".toList) : c ∉ f.head.toList := by
  refine f.notMem_head (h.names _ (List.mem_map_of_mem hf)) (fun x hx => ?_) hc hwords
  obtain ⟨s, -, rfl, -⟩ := h.origin f hf
  change x ∈ s.parameters at hx
  rw [Occurrence.parameters] at hx
  split at hx
  · exact absurd hx List.not_mem_nil
  · obtain ⟨b, -, rfl⟩ := List.mem_map.1 hx
    exact isName_identifier b.1

/-- **Which template literals survive emission.** Take a literal in the code of a node or in the body of its template.
In the function that the node calls, the indented literal stands behind as many backticks as stood before the literal
when the calls of the children were filled in. So the literal stands there with the characters that the user wrote, and
keeps its value, exactly if no line ends in it. -/
theorem template_literals_survive_iff {tree : List Node} {text : String} (h : compile find? tree = .ok text) :
    ∃ (forest : Forest find?) (calls : List Call) (p : Program),
      resolve find? tree = .ok forest ∧ forest.emit .empty = (calls, p) ∧ text = p.text (calls.map Call.text) ∧
      ∀ s ∈ forest.sites .empty, ∃ f ∈ p.functions, f.name = s.call.callee ∧ p.functionNames.count f.name = 1 ∧
        ∀ before literal after, s.own.text = before ++ backtick :: (literal ++ backtick :: after) →
          PlainLiteral literal →
          let n := (fillBody (callLines s.inner) before).count backtick
          HoldsAt n (indentedLiteral literal) f.text.toList ∧
          (HoldsAt n literal f.text.toList ↔ '\n' ∉ literal) ∧
          (templateValue (indentedLiteral literal) = templateValue literal ↔ '\n' ∉ literal) := by
  obtain ⟨⟨calls, p⟩, hgenerate, rfl⟩ := map_eq_ok_iff.1 h
  obtain ⟨forest, hresolve, hemit⟩ := generate_eq_ok_iff.1 hgenerate
  have hlinked := Forest.linked hemit
  refine ⟨forest, calls, p, hresolve, hemit, rfl, fun s hs => ?_⟩
  obtain ⟨f, hf, hname, hbody⟩ := hlinked.exists_body hs
  refine ⟨f, hf, hname, hname ▸ hlinked.count_callee hs, ?_⟩
  intro before literal after htext hliteral n
  obtain ⟨rest, hfill⟩ := OwnText.exists_fill_eq hliteral htext s.inner
  have hholds : HoldsAt n (indentedLiteral literal) f.text.toList :=
    Function.holdsAt_text (hbody.trans hfill) (hlinked.notMem_head hf (by decide) (by decide))
  refine ⟨hholds, ⟨fun hsame => ?_, fun hfeed => ?_⟩, templateValue_indentedLiteral_iff⟩
  · exact indentedLiteral_eq_self_iff.1 (hholds.unique (backtick_notMem_indentedLiteral hliteral.backtick)
      hliteral.backtick hsame)
  · rw [indentedLiteral_of_feed_notMem hfeed] at hholds
    exact hholds

/-- A literal on one line, behind another one that goes over two lines. -/
theorem one_line_literal_survives :
    ∃ (forest : Forest numberedScripts) (calls : List Call) (p : Program),
      resolve numberedScripts [codeNode "x = `a\nb` + `c  d`;"] = .ok forest ∧ forest.emit .empty = (calls, p) ∧
        ∃ f ∈ p.functions, f.name = "source_1" ∧ HoldsAt 2 "c  d".toList f.text.toList := by
  obtain ⟨forest, calls, p, hresolve, hemit, -, hall⟩ :=
    @template_literals_survive_iff numberedScripts [codeNode "x = `a\nb` + `c  d`;"] _ rfl
  cases hresolve
  cases hemit
  refine ⟨_, _, _, rfl, rfl, ?_⟩
  obtain ⟨f, hf, hname, -, hliteral⟩ := hall _ List.mem_cons_self
  have hplain : PlainLiteral "c  d".toList := ⟨by decide, by decide, by decide, by decide⟩
  obtain ⟨-, hholds, -⟩ := hliteral "x = `a\nb` + ".toList "c  d".toList ";".toList rfl hplain
  exact ⟨f, hf, hname.trans (by decide +kernel), hholds.2 (by decide)⟩

/-- A literal on two lines does not stand in the function of the code any more. -/
theorem two_line_literal_is_indented :
    ¬ ∀ (find? : String → Option Definition) (tree : List Node) (calls : List Call) (p : Program),
      generate find? tree = .ok (calls, p) → ∀ forest : Forest find?, resolve find? tree = .ok forest →
        ∀ s ∈ forest.sites .empty, ∀ f ∈ p.functions, f.name = s.call.callee →
          ∀ before literal after, s.own.text = before ++ backtick :: (literal ++ backtick :: after) →
            (∀ c ∈ before, c ∉ "\"'/`".toList) → PlainLiteral literal →
              backtick :: (literal ++ [backtick]) <:+: f.text.toList := by
  intro h
  have hplain : PlainLiteral "a\nb".toList := ⟨by decide, by decide, by decide, by decide⟩
  have hbefore : ∀ c ∈ "x = ".toList, c ∉ "\"'/`".toList := by simp
  have hsame := h numberedScripts [codeNode "x = `a\nb`;"] _ _ rfl _ rfl _ List.mem_cons_self _ List.mem_cons_self rfl
    "x = ".toList "a\nb".toList ";".toList rfl hbefore hplain
  revert hsame
  decide +kernel

end

end ScriptRunner.Script
