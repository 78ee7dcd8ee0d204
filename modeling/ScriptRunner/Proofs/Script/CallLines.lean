import ScriptRunner.Proofs.Json.Laws
import ScriptRunner.Proofs.Script.Faults
import ScriptRunner.Proofs.Script.Layout
import ScriptRunner.Proofs.Script.Scoping

/-!
# One line for each call

The lines of a program are those of its fragments and functions and those of the block that makes the calls of the top
level (`Program.splitOn_text`). This block has one line for each call (`splitOn_runBlock`), and the calls are those of
the nodes that are neither disabled nor free fragments (`resolve_calls`). In the function of a node the calls of its
children stand one a line as well (`Function.exists_splitOn_text`).

All this rests on the literals, which have no line feeds. The literal of a text ends at its second quote that no
backslash escapes, whatever follows, and reads back as the text (`text_literal_is_closed`).
-/

namespace ScriptRunner.Script

/-! ## Literals -/

/-- What stands behind the first quote that no backslash escapes. -/
def behindQuote? : List Char → Option (List Char)
  | [] => none
  | '"' :: r => some r
  | '\\' :: _ :: r => behindQuote? r
  | _ :: r => behindQuote? r

theorem behindQuote?_of_ordinary {c : Char} (hquote : c ≠ '"') (hbackslash : c ≠ '\\') (r : List Char) :
    behindQuote? (c :: r) = behindQuote? r := by
  rw [behindQuote?.eq_4 _ _ hquote fun _ _ he _ => hbackslash he]

theorem behindQuote?_hexDigit : ∀ n < 16, Json.hexDigit n ≠ '"' ∧ Json.hexDigit n ≠ '\\' := by
  decide

theorem behindQuote?_escape (c : Char) (r : List Char) : behindQuote? (Json.escape c ++ r) = behindQuote? r := by
  unfold Json.escape
  split_ifs with hquote hbackslash
  any_goals rfl
  · obtain ⟨hhigh, hhigh'⟩ := behindQuote?_hexDigit (c.toNat / 16) (by omega)
    obtain ⟨hlow, hlow'⟩ := behindQuote?_hexDigit (c.toNat % 16) (by omega)
    show behindQuote? ('0' :: '0' :: Json.hexDigit (c.toNat / 16) :: Json.hexDigit (c.toNat % 16) :: r) = _
    rw [behindQuote?_of_ordinary (by decide) (by decide), behindQuote?_of_ordinary (by decide) (by decide),
      behindQuote?_of_ordinary hhigh hhigh', behindQuote?_of_ordinary hlow hlow']
  · exact behindQuote?_of_ordinary hquote hbackslash r

/-- No quote shows in escaped text. -/
theorem behindQuote?_escaped (cs r : List Char) : behindQuote? (cs.flatMap Json.escape ++ r) = behindQuote? r := by
  induction cs with
  | nil => rfl
  | cons c cs ih => rw [List.flatMap_cons, List.append_assoc, behindQuote?_escape, ih]

/-- **No text escapes its literal.** -/
theorem text_literal_is_closed (s : String) :
    ∃ inside, (BoundValue.text s).literal.toList = '"' :: (inside ++ ['"']) ∧
      (∀ c ∈ inside, 0x20 ≤ c.toNat) ∧ behindQuote? inside = none ∧
      (∀ rest, behindQuote? (inside ++ '"' :: rest) = some rest) ∧
      Json.decodeText Decoder.string (BoundValue.text s).literal = .ok s := by
  refine ⟨s.toList.flatMap Json.escape, String.toList_ofList, ?_, ?_, ?_, ?_⟩
  · have hplain := (Json.plain_cons.1 (Json.plain_quoted s.toList)).2
    exact (Json.plain_append.1 hplain).1
  · have hnone := behindQuote?_escaped s.toList []
    rwa [List.append_nil] at hnone
  · intro rest
    rw [behindQuote?_escaped]
    rfl
  · exact (Json.Takes.string s).decodeText_compact (Nat.zero_le _)

/-- The literal of a text that tries to leave it. -/
example : (BoundValue.text "\");\nquit(\"").literal = "\"\\\");\\nquit(\\\"\"" := by decide

/-! ## Calls on lines -/

/-- Calls one a line, with what stands before the first and behind the last. -/
def linesBetween (before after : List Char) : List Call → List (List Char)
  | [] => []
  | [c] => [before ++ c.text.toList ++ after]
  | c :: cs => (before ++ c.text.toList) :: linesBetween [] after cs

namespace Call

theorem toList_text_eq (c : Call) : ∃ r, c.text.toList = r ++ [';'] :=
  ⟨c.callee.toList ++ '(' :: ((", ".intercalate c.arguments).toList ++ [')']), by rw [toList_text]; simp⟩

theorem Plain.unbroken {c : Call} (h : c.Plain) : Text.Unbroken c.text.toList := by
  obtain ⟨r, hr⟩ := c.toList_text_eq
  exact ⟨h.feed_notMem_text, by simp [hr], by simp [hr]⟩

end Call

section
variable {calls : List Call} {before after : List Char}

theorem mem_of_mem_linesBetween {l : List Char} (h : l ∈ linesBetween before after calls) : ';' ∈ l := by
  have hcall : ∀ c : Call, ';' ∈ c.text.toList := fun c => by
    obtain ⟨r, hr⟩ := c.toList_text_eq
    simp [hr]
  fun_induction linesBetween before after calls with
  | case1 => cases h
  | case2 before c =>
    rw [List.mem_singleton.1 h]
    exact List.mem_append_left _ (List.mem_append_right _ (hcall c))
  | case3 before c cs _ ih =>
    rcases List.mem_cons.1 h with rfl | h
    · exact List.mem_append_right _ (hcall c)
    · exact ih h

theorem callLines_singleton (c : Call) : callLines [c] = c.text.toList := by
  simp [callLines, Text.joinLines]

/-- The lines of calls are lines of the text that they stand in. -/
theorem lines_callLines_append (h : ∀ c ∈ calls, c.Plain) (hne : calls ≠ []) (hbefore : '\n' ∉ before)
    (r : List Char) : Text.lines (before ++ (callLines calls ++ r)) =
      linesBetween before ((Text.lines r).headD []) calls ++ (Text.lines r).tail := by
  induction calls generalizing before with
  | nil => exact absurd rfl hne
  | cons c cs ih =>
    obtain ⟨hc, hcs⟩ := List.forall_mem_cons.1 h
    have hunbroken := hc.unbroken.prepend hbefore
    cases cs with
    | nil =>
      rw [callLines_singleton, ← List.append_assoc]
      exact hunbroken.lines_append r
    | cons d ds =>
      have hjoin : callLines (c :: d :: ds) = c.text.toList ++ '\n' :: callLines (d :: ds) :=
        Text.joinLines_cons_cons _ _ _
      have hrest := @ih [] hcs (List.cons_ne_nil d ds) List.not_mem_nil
      rw [List.nil_append] at hrest
      rw [hjoin, List.append_assoc, ← List.append_assoc, hunbroken.lines_append, List.cons_append, Text.lines, hrest]
      simp [linesBetween]

theorem exists_callLines_cons (c : Call) (cs : List Call) : ∃ r, callLines (c :: cs) = c.text.toList ++ r := by
  cases cs with
  | nil => exact ⟨[], by rw [callLines_singleton, List.append_nil]⟩
  | cons d ds => exact ⟨_, Text.joinLines_cons_cons _ _ _⟩

theorem head?_callLines (h : ∀ c ∈ calls, c.Plain) : (callLines calls).head? ≠ some '\n' := by
  cases calls with
  | nil => simp [callLines, Text.joinLines]
  | cons c cs =>
    obtain ⟨r, hr⟩ := exists_callLines_cons c cs
    have hc := (h c List.mem_cons_self).unbroken
    rw [hr, List.head?_append_of_ne_nil _ hc.nonempty]
    exact fun he => hc.feed (List.mem_of_head? he)

theorem getLast?_callLines (h : ∀ c ∈ calls, c.Plain) : (callLines calls).getLast? ≠ some '\n' := by
  obtain rfl | ⟨cs, c, rfl⟩ := List.eq_nil_or_concat calls
  · simp [callLines, Text.joinLines]
  · rw [List.concat_eq_append] at h ⊢
    have hc := (h c (List.mem_append_right cs List.mem_cons_self)).unbroken
    rw [callLines, List.map_append, List.map_singleton, Text.joinLines, intercalate_concat,
      List.getLast?_append_of_ne_nil _ hc.nonempty]
    exact fun he => hc.feed (List.mem_of_getLast? he)

/-- Empty lines around the lines of calls do not matter. -/
theorem exists_lines_strip_eq (h : ∀ c ∈ calls, c.Plain) (hne : calls ≠ []) :
    ∃ front back a z, Text.lines (Text.strip (· = '\n') (before ++ (callLines calls ++ after))) =
      front ++ (linesBetween a z calls ++ back) := by
  have hlines : callLines calls ≠ [] := fun hnil => hne (callLines_eq_nil_iff.1 hnil)
  have hstrip : Text.strip (· = '\n') (before ++ (callLines calls ++ after)) =
      before.dropWhile (· = '\n') ++ (callLines calls ++ Text.stripEnd (· = '\n') after) := by
    refine Text.strip_append hlines (fun c hc => ?_) fun c hc => ?_
    · exact decide_eq_false fun he => head?_callLines h (he ▸ hc)
    · exact decide_eq_false fun he => getLast?_callLines h (he ▸ hc)
  rw [hstrip]
  generalize before.dropWhile (· = '\n') = X, Text.stripEnd (· = '\n') after = Y
  refine ⟨Text.lines (Text.closedLines X), (Text.lines Y).tail, Text.openLine X, (Text.lines Y).headD [], ?_⟩
  rw [← lines_callLines_append h hne (Text.feed_notMem_openLine X) Y, ← Text.lines_closedLines_append,
    ← List.append_assoc (Text.closedLines X), Text.closedLines_append_openLine]

/-- Wherever the lines of calls stand in the body of a function, they are lines of its text. -/
theorem Function.exists_splitOn_text {f : Function} (hbody : f.body.toList = before ++ (callLines calls ++ after))
    (h : ∀ c ∈ calls, c.Plain) (hne : calls ≠ []) :
    ∃ front back a z, f.text.toList.splitOn '\n' =
      front ++ ((linesBetween a z calls).map (indentation.toList ++ ·) ++ back) := by
  have hvisible : isVisible ';' = true := by decide
  have hmem : ';' ∈ f.body.toList := by
    obtain ⟨c, cs, rfl⟩ := List.exists_cons_of_ne_nil hne
    obtain ⟨r, hr⟩ := exists_callLines_cons c cs
    obtain ⟨r', hr'⟩ := c.toList_text_eq
    simp [hbody, hr, hr']
  obtain ⟨front, back, a, z, hlines⟩ := exists_lines_strip_eq h hne
  have hbodyLines : f.bodyLines = front ++ (linesBetween a z calls ++ back) := by
    rw [bodyLines, hbody, hlines]
  have hindent : (linesBetween a z calls).map indentLine = (linesBetween a z calls).map (indentation.toList ++ ·) :=
    List.map_congr_left fun l hl => indentLine_of_mem (mem_of_mem_linesBetween hl) hvisible
  refine ⟨f.head.toList.splitOn '\n' ++ front.map indentLine, back.map indentLine ++ [['\x7d'], []], a, z, ?_⟩
  rw [f.splitOn_text hmem hvisible, hbodyLines, List.map_append, List.map_append, hindent]
  simp only [List.append_assoc]

end

/-- Where calls show in a text, their lines stand in what it is filled to. -/
theorem OwnText.exists_fill_eq_append {t : OwnText} (h : t.takesCalls = true) {calls : List Call} (hne : calls ≠ []) :
    ∃ before after, t.fill calls = before ++ (callLines calls ++ after) := by
  unfold fill
  split
  · exact ⟨t.text ++ ['\n'], [], by simp⟩
  · rename_i hplaced
    have hplace : t.hasPlace := by
      by_contra hnot
      simp only [takesCalls, hnot, decide_false, Bool.or_false] at h
      exact hplaced ⟨h, hnot, hne⟩
    obtain ⟨l, ls, hps⟩ := List.exists_cons_of_ne_nil (pieces_ne_nil t.text)
    obtain ⟨m, ms, rfl⟩ : ∃ m ms, ls = m :: ms := by
      refine List.exists_cons_of_ne_nil fun hnil => ?_
      simp [hasPlace, hps, hnil] at hplace
    refine ⟨l, (callLines calls).intercalate (m :: ms), ?_⟩
    rw [hps, List.intercalate_cons_cons, List.append_assoc]

/-! ## Programs -/

/-- The block has one line for each call. -/
theorem splitOn_runBlock {calls : List String} (h : ∀ c ∈ calls, '\n' ∉ c.toList) :
    (runBlock calls).toList.splitOn '\n' =
      "(function run() \x7b".toList :: (calls.map (fun c => (indentation ++ c).toList) ++ ["\x7d)();".toList, []]) := by
  have hlines : ∀ l ∈ calls.map fun c => (indentation ++ c).toList, '\n' ∉ l := by
    intro l hl
    obtain ⟨c, hc, rfl⟩ := List.mem_map.1 hl
    have hindentation : '\n' ∉ indentation.toList := by decide
    simp [hindentation, h c hc]
  have htext : (runBlock calls).toList = "(function run() \x7b".toList ++
      '\n' :: ((calls.map fun c => (indentation ++ c).toList).flatMap (· ++ ['\n']) ++
        ("\x7d)();".toList ++ ['\n'])) := by
    have hfeed : "\n".toList = ['\n'] := rfl
    have hopen : "(function run() \x7b\n".toList = "(function run() \x7b".toList ++ ['\n'] := rfl
    have hclose : "\x7d)();\n".toList = "\x7d)();".toList ++ ['\n'] := rfl
    show ("(function run() \x7b\n" ++ String.join (calls.map fun c => indentation ++ c ++ "\n") ++ "\x7d)();\n").toList = _
    simp only [String.toList_append, hopen, hclose, String.toList_join, hfeed, List.append_assoc, List.cons_append,
      List.nil_append, List.flatMap_map]
  rw [htext, splitOn_append_cons, splitOn_flatMap_feed, flatMap_splitOn hlines]
  rfl

/-- The lines of a program are those of its fragments and functions and those of the block. -/
theorem Program.splitOn_text (p : Program) (calls : List String) :
    (p.text calls).toList.splitOn '\n' =
      ((p.fragments ++ p.functions.map Function.text).flatMap fun part => part.toList.splitOn '\n') ++
        (runBlock calls).toList.splitOn '\n' := by
  have htext : (p.text calls).toList =
      ((p.fragments ++ p.functions.map Function.text).map String.toList).flatMap (· ++ ['\n']) ++
        (runBlock calls).toList := by
    have hfeed : "\n".toList = ['\n'] := rfl
    rw [Program.text_eq, String.toList_append, String.toList_join, List.flatMap_map, List.flatMap_map]
    simp only [String.toList_append, hfeed]
  rw [htext, splitOn_flatMap_feed, List.flatMap_map]

section
variable {find? : String → Option Definition}

/-- The node yields a call: it is neither disabled nor a free fragment. -/
def Node.yieldsCall (find? : String → Option Definition) (n : Node) : Bool := !n.disabled && !n.isFragment find?

/-- The site is that of the node, and the call is its call. -/
structure Site.Makes (s : Site find?) (n : Node) (c : Call) : Prop where
  name : s.name = n.name
  values : s.values = n.values
  call : s.call = c

theorem Forest.sites_append (f g : Forest find?) (p : Program) :
    (f.append g).sites p = f.sites p ++ g.sites (f.emit p).2 := by
  induction f generalizing p with
  | nil => rfl
  | fragment o rest ih => exact ih _
  | call o children rest _ ih => simp [append, emit, sites, ih]

/-- A node makes its call if it yields one. -/
theorem resolveNode_call {n : Node} {f : Forest find?} (h : resolveNode find? n = .ok f) (p : Program) :
    List.Forall₂ (fun n c => ∃ s ∈ f.sites p, s.Makes n c) ([n].filter (Node.yieldsCall find?)) (f.emit p).1 := by
  obtain ⟨name, values, children, disabled⟩ := n
  rcases node_cases find? ⟨name, values, children, disabled⟩ with hd | ⟨hd, hf⟩ | ⟨d, e, hd, hf, hb⟩ | ⟨o, ho⟩
  · cases hd
    cases resolveNode_disabled.symm.trans h
    exact .nil
  · cases hd
    cases (resolveNode_unknown hf).symm.trans h
  · cases hd
    cases (resolveNode_unbound hf hb).symm.trans h
  · cases ho
    have hyields : Node.yieldsCall find? ⟨o.name, o.values, children, false⟩ = !o.isFragment := by
      rw [Node.yieldsCall, o.isFragment_node]
      rfl
    rw [resolveNode_occurrence] at h
    rw [List.filter_cons, hyields]
    split at h
    · rename_i hfragment
      cases h
      rw [hfragment]
      exact .nil
    · rename_i hlive
      obtain ⟨inner, -, rfl⟩ := map_eq_ok_iff.1 h
      rw [Bool.not_eq_true] at hlive
      rw [hlive]
      exact .cons ⟨_, List.mem_append_right _ List.mem_cons_self, rfl, rfl, rfl⟩ .nil

/-- **The calls of a forest are those of its nodes**, in order, without the nodes that yield none. -/
theorem resolve_calls {tree : List Node} {f : Forest find?} (h : resolve find? tree = .ok f) (p : Program) :
    List.Forall₂ (fun n c => ∃ s ∈ f.sites p, s.Makes n c) (tree.filter (Node.yieldsCall find?)) (f.emit p).1 := by
  induction tree generalizing f p with
  | nil =>
    cases h
    exact .nil
  | cons n ns ih =>
    rw [resolve] at h
    cases hn : resolveNode find? n with
    | error e =>
      rw [hn] at h
      cases h
    | ok g =>
      rw [hn] at h
      obtain ⟨rest, hrest, rfl⟩ := map_eq_ok_iff.1 h
      have hfirst := resolveNode_call hn p
      have hothers := ih hrest (g.emit p).2
      rw [Forest.emit_append, Forest.sites_append, ← List.singleton_append, List.filter_append]
      refine List.rel_append (hfirst.imp fun n c => ?_) (hothers.imp fun n c => ?_)
      · rintro ⟨s, hs, hmakes⟩
        exact ⟨s, List.mem_append_left _ hs, hmakes⟩
      · rintro ⟨s, hs, hmakes⟩
        exact ⟨s, List.mem_append_right _ hs, hmakes⟩

/-- The calls of the top level take up one line each. -/
theorem Forest.feed_notMem_calls {f : Forest find?} {calls : List Call} {p : Program}
    (h : f.emit .empty = (calls, p)) : ∀ c ∈ calls.map Call.text, '\n' ∉ c.toList := by
  have hcalls : (f.emit .empty).1 = calls := by rw [h]
  intro l hl
  obtain ⟨c, hc, rfl⟩ := List.mem_map.1 hl
  obtain ⟨s, hs, rfl⟩ := f.exists_site .empty c (hcalls ▸ hc)
  exact ((Forest.linked h).plain hs).feed_notMem_text

/-- **One line for each call.** A program ends with the block that makes the calls of the top level, one a line, for
the nodes that are neither disabled nor free fragments, in order. The call of a template passes the literals of the bound
parameters in declaration order, that of raw code passes nothing. Wherever the calls of children stand in a function,
they stand one a line, and no text escapes its literal. -/
theorem calls_stand_on_own_lines {tree : List Node} {text : String} (h : compile find? tree = .ok text) :
    ∃ (forest : Forest find?) (calls : List Call) (p : Program),
      resolve find? tree = .ok forest ∧ forest.emit .empty = (calls, p) ∧
      text.toList.splitOn '\n' =
        ((p.fragments ++ p.functions.map Function.text).flatMap fun part => part.toList.splitOn '\n') ++
          ("(function run() \x7b".toList ::
            (calls.map (fun c => (indentation ++ (c.callee ++ "(" ++ ", ".intercalate c.arguments ++ ");")).toList) ++
              ["\x7d)();".toList, []])) ∧
      let sites := forest.sites .empty
      List.Forall₂ (fun n c => ∃ s ∈ sites, s.Makes n c) (tree.filter (Node.yieldsCall find?)) calls ∧
      (∀ s ∈ sites, p.functionNames.count s.call.callee = 1 ∧
        s.call.arguments = (if s.isRaw then [] else s.bound.map fun b => b.2.literal) ∧
        s.bound.map Prod.fst = s.definition.params.map Param.name) ∧
      (∀ s ∈ sites, s.shown ≠ [] → ∃ f ∈ p.functions, f.name = s.call.callee ∧
        (∃ before after, f.body.toList = before ++ (callLines s.shown ++ after)) ∧
        ∀ before after, f.body.toList = before ++ (callLines s.shown ++ after) →
          ∃ front back a z, f.text.toList.splitOn '\n' =
            front ++ ((linesBetween a z s.shown).map (indentation.toList ++ ·) ++ back)) ∧
      ∀ v : String, ∃ inside, (BoundValue.text v).literal.toList = '"' :: (inside ++ ['"']) ∧
        (∀ c ∈ inside, 0x20 ≤ c.toNat) ∧ behindQuote? inside = none ∧
        (∀ rest, behindQuote? (inside ++ '"' :: rest) = some rest) ∧
        Json.decodeText Decoder.string (BoundValue.text v).literal = .ok v := by
  obtain ⟨⟨calls, p⟩, hgenerate, rfl⟩ := map_eq_ok_iff.1 h
  obtain ⟨forest, hresolve, hemit⟩ := generate_eq_ok_iff.1 hgenerate
  have hlinked := Forest.linked hemit
  refine ⟨forest, calls, p, hresolve, hemit, ?_, ?_, fun s hs => ?_, fun s hs hshown => ?_, text_literal_is_closed⟩
  · show (p.text (calls.map Call.text)).toList.splitOn '\n' = _
    rw [p.splitOn_text, splitOn_runBlock (Forest.feed_notMem_calls hemit), List.map_map]
    rfl
  · have hcalls := resolve_calls hresolve .empty
    rwa [hemit] at hcalls
  · exact ⟨hlinked.count_callee hs, hlinked.arguments s hs, bindParams_names s.binds⟩
  · obtain ⟨f, hf, hname, hbody⟩ := hlinked.exists_body hs
    have htakes : s.own.takesCalls = true := by
      by_contra hnot
      exact hshown (if_neg hnot)
    have hsame : s.shown = s.inner := if_pos htakes
    rw [hsame] at hshown ⊢
    obtain ⟨before, after, hfill⟩ := OwnText.exists_fill_eq_append htakes hshown
    refine ⟨f, hf, hname, ⟨before, after, hbody.trans hfill⟩, fun before after hplace => ?_⟩
    exact Function.exists_splitOn_text hplace (hlinked.plain_inner hs) hshown

/-- A value that tries to end its line and its call stays in its literal. -/
theorem call_with_breaking_text_stays_on_line :
    ∃ (calls : List Call) (p : Program),
      generate (groupings "who") [⟨"Group", .ofList [("who", "a\n\");\nquit(\"")], [plainNode "Greet" []], false⟩] =
        .ok (calls, p) ∧
      ∃ front, (p.text (calls.map Call.text)).toList.splitOn '\n' =
        front ++ ["(function run() \x7b".toList, "    group(\"a\\n\\\");\\nquit(\\\"\");".toList, "\x7d)();".toList, []] := by
  obtain ⟨forest, calls, p, hresolve, hemit, hlines, -⟩ :=
    @calls_stand_on_own_lines (groupings "who")
      [⟨"Group", .ofList [("who", "a\n\");\nquit(\"")], [plainNode "Greet" []], false⟩] _ rfl
  cases hresolve
  cases hemit
  exact ⟨_, _, rfl, _, hlines⟩

/-- The call of raw code passes nothing, though values are bound to the parameters of its definition. -/
theorem raw_call_passes_nothing :
    ¬ ∀ (find? : String → Option Definition) (tree : List Node) (text : String), compile find? tree = .ok text →
      ∀ forest : Forest find?, resolve find? tree = .ok forest → ∀ s ∈ forest.sites .empty,
        s.call ∈ (forest.emit .empty).1 →
          (indentation ++ Call.text ⟨s.call.callee, s.bound.map fun b => b.2.literal⟩).toList ∈
            text.toList.splitOn '\n' := by
  intro h
  have hline := h numberedScripts [codeNode "a();"] _ rfl _ rfl _ List.mem_cons_self List.mem_cons_self
  revert hline
  decide +kernel

end

end ScriptRunner.Script
