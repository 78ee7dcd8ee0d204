import ScriptRunner.Proofs.Script.Filling
import ScriptRunner.Proofs.Text.Lines
import ScriptRunner.Proofs.Text.Trimming

/-!
# How functions are laid out

A function stands in a program as its head, the lines of its body and a brace. The lines are indented and ended one by
one (`insetLines`, `Function.toList_text`), so a line of the body is a line of the text (`Function.splitOn_text`).
Indentation adds and removes blank characters and nothing else (`filter_insetLines`).
-/

namespace ScriptRunner.Script

/-! ## Indented lines -/

/-- A character that shows. -/
def isVisible (c : Char) : Bool := !Text.isBlank c

/-- Lines as they stand in a function, each indented and with its end. -/
def insetLines (ls : List (List Char)) : List Char := ls.flatMap fun l => indentLine l ++ ['\n']

section
variable {c : Char} {l : List Char} {ls : List (List Char)}

theorem insetLines_append (ls ms : List (List Char)) : insetLines (ls ++ ms) = insetLines ls ++ insetLines ms :=
  List.flatMap_append

theorem insetLines_cons (l : List Char) (ls : List (List Char)) :
    insetLines (l :: ls) = indentLine l ++ '\n' :: insetLines ls := by
  simp [insetLines]

/-- A line that shows something stands behind the indentation. -/
theorem indentLine_of_mem (h : c ∈ l) (hc : isVisible c = true) : indentLine l = indentation.toList ++ l := by
  refine if_neg fun hall => ?_
  have hblank := List.all_eq_true.1 hall c h
  simp [isVisible, hblank] at hc

theorem feed_notMem_indentLine (h : '\n' ∉ l) : '\n' ∉ indentLine l := by
  unfold indentLine
  split
  · exact List.not_mem_nil
  · have hindentation : '\n' ∉ indentation.toList := by decide
    simp [hindentation, h]

theorem filter_indentLine (l : List Char) : (indentLine l).filter isVisible = l.filter isVisible := by
  unfold indentLine
  split
  · rename_i hall
    have hnone : ∀ c ∈ l, ¬ isVisible c = true := fun c hc => by simp [isVisible, List.all_eq_true.1 hall c hc]
    rw [List.filter_eq_nil_iff.2 hnone, List.filter_nil]
  · have hindentation : indentation.toList.filter isVisible = [] := by decide
    rw [List.filter_append, hindentation, List.nil_append]

theorem filter_flatten_lines (cs : List Char) :
    (Text.lines cs).flatten.filter isVisible = cs.filter isVisible := by
  induction cs using Text.lines.induct with
  | case1 => rfl
  | case2 r ih => simpa [Text.lines, isVisible, Text.isBlank] using ih
  | case3 r ih => simpa [Text.lines, isVisible, Text.isBlank] using ih
  | case4 c r hc hr hnil ih =>
    rw [hnil] at ih
    rw [Text.lines_cons hc hr, hnil, List.filter_cons, ← ih]
    simp [List.filter_cons]
  | case5 c r hc hr m ms hm ih =>
    rw [hm] at ih
    rw [Text.lines_cons hc hr, hm, List.filter_cons, ← ih]
    simp [List.filter_cons, List.filter_append]

/-- **Indentation changes nothing but blanks.** -/
theorem filter_insetLines (ls : List (List Char)) :
    (insetLines ls).filter isVisible = ls.flatten.filter isVisible := by
  have hfeed : ['\n'].filter isVisible = [] := by decide
  induction ls with
  | nil => rfl
  | cons l ls ih =>
    rw [insetLines_cons, List.append_cons, List.filter_append, List.filter_append, filter_indentLine, hfeed,
      List.append_nil, ih, List.flatten_cons, List.filter_append]

theorem count_eq_of_filter_eq {cs ds : List Char} (hc : isVisible c = true)
    (h : cs.filter isVisible = ds.filter isVisible) : cs.count c = ds.count c := by
  rw [← List.count_filter hc, h, List.count_filter hc]

/-- A visible character stands as often in the indented lines as in the text. -/
theorem count_insetLines_lines (hc : isVisible c = true) (cs : List Char) :
    (insetLines (Text.lines cs)).count c = cs.count c :=
  count_eq_of_filter_eq hc ((filter_insetLines _).trans (filter_flatten_lines cs))

/-- Two ways to cut a list at one element are the same if as many of these elements stand before the cuts. -/
theorem append_cons_inj_of_count {α : Type} [BEq α] [LawfulBEq α] {a : α} {xs xs' ys ys' : List α}
    (h : xs ++ a :: ys = xs' ++ a :: ys') (hcount : xs.count a = xs'.count a) : xs = xs' ∧ ys = ys' := by
  induction xs generalizing xs' with
  | nil =>
    cases xs' with
    | nil => exact ⟨rfl, (List.cons.inj h).2⟩
    | cons x xs' =>
      rw [← (List.cons.inj h).1, List.count_cons_self, List.count_nil] at hcount
      omega
  | cons x xs ih =>
    cases xs' with
    | nil =>
      rw [(List.cons.inj h).1, List.count_cons_self, List.count_nil] at hcount
      omega
    | cons x' xs' =>
      obtain ⟨rfl, hrest⟩ := List.cons.inj h
      rw [List.count_cons, List.count_cons, Nat.add_right_cancel_iff] at hcount
      obtain ⟨rfl, hys⟩ := ih hrest hcount
      exact ⟨rfl, hys⟩

theorem splitOn_append_cons {α : Type} [BEq α] [LawfulBEq α] (a : α) (xs ys : List α) :
    (xs ++ a :: ys).splitOn a = xs.splitOn a ++ ys.splitOn a :=
  List.splitOnP_append_cons xs ys (beq_self_eq_true a)

/-- Texts that line feeds end are cut one by one. -/
theorem splitOn_flatMap_feed (ls : List (List Char)) (r : List Char) :
    ((ls.flatMap (· ++ ['\n'])) ++ r).splitOn '\n' = (ls.flatMap fun l => l.splitOn '\n') ++ r.splitOn '\n' := by
  induction ls with
  | nil => rfl
  | cons l ls ih =>
    rw [List.flatMap_cons, List.flatMap_cons, List.append_assoc, List.append_assoc, List.singleton_append,
      splitOn_append_cons, ih, List.append_assoc]

theorem flatMap_splitOn (h : ∀ l ∈ ls, '\n' ∉ l) : (ls.flatMap fun l => l.splitOn '\n') = ls := by
  rw [List.flatMap_congr fun l hl => List.splitOn_eq_singleton (h l hl), List.flatMap_singleton']

theorem joinLines_append_feed (h : ls ≠ []) : Text.joinLines ls ++ ['\n'] = ls.flatMap (· ++ ['\n']) := by
  obtain ⟨ms, l, rfl⟩ := (List.eq_nil_or_concat ls).resolve_left h
  rw [List.concat_eq_append, Text.joinLines, intercalate_concat, List.flatMap_append]
  simp

end

/-! ## Functions -/

namespace Function

/-- The line that a function starts with. -/
def head (f : Function) : String := "function " ++ f.name ++ "(" ++ ", ".intercalate f.parameters ++ ") \x7b"

/-- Only names and the words around them stand in the first line. -/
theorem notMem_head {f : Function} (hname : IsName f.name) (hparameters : ∀ x ∈ f.parameters, IsName x) {c : Char}
    (hc : isNameChar c = false) (hwords : c ∉ "function (, ) \x7b".toList) : c ∉ f.head.toList := by
  have hnot : ∀ {s : String}, IsName s → c ∉ s.toList := fun hs hm => by
    rw [hs c hm] at hc
    cases hc
  have hwords' : c ∉ "function ".toList ++ "(".toList ++ ", ".toList ++ ") \x7b".toList := hwords
  simp only [List.mem_append, not_or] at hwords'
  obtain ⟨⟨⟨hkeyword, hopen⟩, hcomma⟩, hclose⟩ := hwords'
  have hlist : c ∉ (", ".intercalate f.parameters).toList := by
    rw [String.toList_intercalate]
    refine notMem_intercalate hcomma fun l hl => ?_
    obtain ⟨x, hx, rfl⟩ := List.mem_map.1 hl
    exact hnot (hparameters x hx)
  simp only [head, String.toList_append, List.mem_append, not_or]
  exact ⟨⟨⟨⟨hkeyword, hnot hname⟩, hopen⟩, hlist⟩, hclose⟩

/-- The lines of the body, without the empty ones at its ends. -/
def bodyLines (f : Function) : List (List Char) := Text.lines (Text.strip (· = '\n') f.body.toList)

theorem filter_bodyLines (f : Function) : f.bodyLines.flatten.filter isVisible = f.body.toList.filter isVisible := by
  have hfeed : isVisible '\n' = false := by decide
  rw [bodyLines, filter_flatten_lines, Text.filter_strip]
  intro c hc
  rw [of_decide_eq_true hc, hfeed]

/-- A function whose body shows something is its head, the lines of the body and a brace. -/
theorem toList_text (f : Function) {c : Char} (h : c ∈ f.body.toList) (hc : isVisible c = true) :
    f.text.toList = f.head.toList ++ '\n' :: (insetLines f.bodyLines ++ ['\x7d', '\n']) := by
  have hshown : c ∈ insetLines f.bodyLines := by
    have hmem : c ∈ f.body.toList.filter isVisible := List.mem_filter.2 ⟨h, hc⟩
    rw [← f.filter_bodyLines, ← filter_insetLines] at hmem
    exact (List.mem_filter.1 hmem).1
  have hne : f.bodyLines.map indentLine ≠ [] := by
    intro hnil
    rw [List.map_eq_nil_iff.1 hnil] at hshown
    exact absurd hshown List.not_mem_nil
  have hlines : (indentBody f.body).toList ++ ['\n'] = insetLines f.bodyLines := by
    show (String.ofList (Text.joinLines (f.bodyLines.map indentLine))).toList ++ ['\n'] = _
    rw [String.toList_ofList, joinLines_append_feed hne, List.flatMap_map]
    rfl
  have hbody : (indentBody f.body).isEmpty = false := by
    rw [Bool.eq_false_iff]
    intro hempty
    rw [String.isEmpty_iff.1 hempty] at hlines
    have hfeed : c = '\n' := by simpa [← hlines] using hshown
    rw [hfeed] at hc
    exact absurd hc (by decide)
  have hopen : ") \x7b\n".toList = ") \x7b".toList ++ ['\n'] := rfl
  have hclose : "\n\x7d\n".toList = ['\n'] ++ ['\x7d', '\n'] := rfl
  rw [text, hbody, ← hlines]
  simp only [Bool.false_eq_true, if_false, head, String.toList_append, hopen, hclose, List.append_assoc,
    List.cons_append, List.nil_append]

/-- The lines of the body are lines of the text. -/
theorem splitOn_text (f : Function) {c : Char} (h : c ∈ f.body.toList) (hc : isVisible c = true) :
    f.text.toList.splitOn '\n' =
      f.head.toList.splitOn '\n' ++ (f.bodyLines.map indentLine ++ [['\x7d'], []]) := by
  have hindented : ∀ l ∈ f.bodyLines.map indentLine, '\n' ∉ l := by
    intro l hl
    obtain ⟨m, hm, rfl⟩ := List.mem_map.1 hl
    exact feed_notMem_indentLine (Text.feed_notMem_of_mem_lines hm)
  have hinset : insetLines f.bodyLines = (f.bodyLines.map indentLine).flatMap (· ++ ['\n']) := by
    rw [List.flatMap_map]
    rfl
  rw [f.toList_text h hc, splitOn_append_cons, hinset, splitOn_flatMap_feed, flatMap_splitOn hindented]
  rfl

end Function

end ScriptRunner.Script
