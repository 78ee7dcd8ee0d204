import Mathlib.Data.List.DropRight
import ScriptRunner.Text.Line

/-!
# What is written behind the last line

The characters behind the last line feed of a text are its open line (`openLine`). What is written behind the text goes
on in this line; the lines before it stay as they are (`lines_closedLines_append`).
-/

namespace ScriptRunner.Text

variable {cs ds l r : List Char}

/-- The characters behind the last line feed. -/
def openLine (cs : List Char) : List Char := cs.rtakeWhile (· != '\n')

/-- The text up to its last line feed. -/
def closedLines (cs : List Char) : List Char := cs.rdropWhile (· != '\n')

theorem closedLines_append_openLine (cs : List Char) : closedLines cs ++ openLine cs = cs :=
  List.rdropWhile_append_rtakeWhile

theorem feed_notMem_openLine (cs : List Char) : '\n' ∉ openLine cs := by
  intro h
  have hp := List.mem_rtakeWhile_imp h
  simp at hp

theorem openLine_append_feed (cs : List Char) (h : '\n' ∉ l) : openLine (cs ++ '\n' :: l) = l := by
  have hl : ∀ c ∈ l.reverse, (c != '\n') = true := fun c hc => by
    rw [bne_iff_ne]
    rintro rfl
    exact h (List.mem_reverse.1 hc)
  rw [openLine, List.rtakeWhile, List.reverse_append, List.reverse_cons, List.append_assoc,
    List.takeWhile_append_of_pos hl]
  simp

theorem openLine_of_feed_notMem (h : '\n' ∉ l) : openLine l = l := by
  rw [openLine, List.rtakeWhile_eq_self_iff]
  intro c hc
  rw [bne_iff_ne]
  rintro rfl
  exact h hc

/-- The text up to its last line feed is empty or ends with it. -/
theorem closedLines_cases (cs : List Char) : closedLines cs = [] ∨ ∃ ds, closedLines cs = ds ++ ['\n'] := by
  by_cases h : closedLines cs = []
  · exact .inl h
  · refine .inr ⟨(closedLines cs).dropLast, ?_⟩
    have hfeed : (closedLines cs).getLast h = '\n' := by
      have hlast := List.rdropWhile_last_not (· != '\n') cs h
      simpa [closedLines] using hlast
    rw [← hfeed, List.dropLast_append_getLast]

theorem closedLines_of_feed_mem (h : '\n' ∈ cs) : ∃ ds, closedLines cs = ds ++ ['\n'] := by
  refine (closedLines_cases cs).resolve_left fun hnil => ?_
  rw [← closedLines_append_openLine cs, hnil] at h
  exact feed_notMem_openLine cs h

theorem closedLines_of_feed_notMem (h : '\n' ∉ cs) : closedLines cs = [] := by
  have hsplit := closedLines_append_openLine cs
  rw [openLine_of_feed_notMem h] at hsplit
  exact List.append_left_eq_self.1 hsplit

/-- A character that does not belong to the end of a line goes in front of the next line. -/
theorem lines_cons {c : Char} (hc : c ≠ '\n') (hr : ∀ r', c = '\r' → r = '\n' :: r' → False) :
    lines (c :: r) = (c :: (lines r).headD []) :: (lines r).tail := by
  rw [lines]
  · cases lines r <;> rfl
  · exact hc
  · exact hr

theorem lines_ne_nil (h : cs ≠ []) : lines cs ≠ [] := by
  fun_cases lines cs <;> simp_all

theorem lines_cons_append_feed {c : Char} (hc : c ≠ '\n') (hr : ∀ r', c = '\r' → r = '\n' :: r' → False)
    (ih : lines (r ++ '\n' :: ds) = lines (r ++ ['\n']) ++ lines ds) :
    lines (c :: r ++ '\n' :: ds) = lines (c :: r ++ ['\n']) ++ lines ds := by
  cases r with
  | nil =>
    by_cases hreturn : c = '\r'
    · subst hreturn
      rfl
    · have hsingle : ∀ s : List Char, lines (c :: '\n' :: s) = [c] :: lines s := fun s => by
        rw [lines_cons hc fun _ h _ => hreturn h]
        rfl
      exact (hsingle ds).trans (congrArg (· ++ lines ds) (hsingle []).symm)
  | cons d r =>
    have hd : ∀ s r' : List Char, c = '\r' → d :: r ++ s = '\n' :: r' → False := by
      intro s r' hreturn h
      rw [List.cons_append] at h
      exact hr r hreturn (by rw [(List.cons.inj h).1])
    have hne : d :: r ++ ['\n'] ≠ [] := List.cons_ne_nil d _
    obtain ⟨l, ls, hl⟩ := List.exists_cons_of_ne_nil (lines_ne_nil hne)
    have hfirst : ∀ s, lines (c :: d :: r ++ s) =
        (c :: (lines (d :: r ++ s)).headD []) :: (lines (d :: r ++ s)).tail := fun s => lines_cons hc (hd s)
    rw [hfirst, hfirst, ih, hl]
    rfl

/-- A line feed ends a line, whatever follows. -/
theorem lines_append_feed (cs ds : List Char) : lines (cs ++ '\n' :: ds) = lines (cs ++ ['\n']) ++ lines ds := by
  induction cs using lines.induct with
  | case1 => rfl
  | case2 r ih => simp [lines, ih]
  | case3 r ih => simp [lines, ih]
  | case4 c r hc hr _ ih => exact lines_cons_append_feed hc hr ih
  | case5 c r hc hr _ _ _ ih => exact lines_cons_append_feed hc hr ih

/-- What follows the last line feed is read on its own. -/
theorem lines_closedLines_append (cs ds : List Char) :
    lines (closedLines cs ++ ds) = lines (closedLines cs) ++ lines ds := by
  rcases closedLines_cases cs with h | ⟨es, h⟩
  · rw [h]
    rfl
  · rw [h, List.append_assoc, List.singleton_append, lines_append_feed]

/-- A text without a line feed is one line, unless it is empty. -/
theorem lines_of_feed_notMem (hne : l ≠ []) (h : '\n' ∉ l) : lines l = [l] := by
  induction l with
  | nil => exact absurd rfl hne
  | cons c l ih =>
    obtain ⟨hc, hl⟩ : '\n' ≠ c ∧ '\n' ∉ l := by simpa using h
    have hnot : ∀ r' : List Char, c = '\r' → l = '\n' :: r' → False := by
      rintro r' - rfl
      exact hl List.mem_cons_self
    rw [lines_cons (Ne.symm hc) hnot]
    cases l with
    | nil => rfl
    | cons d l => rw [ih (List.cons_ne_nil d l) hl]; rfl

/-- A piece of text that stays together, whatever stands around it: no line ends in it, and it has no carriage return at
its end that a line feed could take away. -/
structure Unbroken (l : List Char) : Prop where
  feed : '\n' ∉ l
  nonempty : l ≠ []
  last : l.getLast? ≠ some '\r'

theorem Unbroken.prepend (h : Unbroken l) (hr : '\n' ∉ r) : Unbroken (r ++ l) where
  feed := by simp [hr, h.feed]
  nonempty := List.append_ne_nil_of_right_ne_nil r h.nonempty
  last := by
    rw [List.getLast?_append_of_ne_nil r h.nonempty]
    exact h.last

/-- An unbroken piece goes in front of the next line. -/
theorem Unbroken.lines_append (h : Unbroken l) (r : List Char) :
    lines (l ++ r) = (l ++ (lines r).headD []) :: (lines r).tail := by
  obtain ⟨hfeed, hne, hlast⟩ := h
  induction l with
  | nil => exact absurd rfl hne
  | cons c l ih =>
    obtain ⟨hc, hl⟩ : '\n' ≠ c ∧ '\n' ∉ l := by simpa using hfeed
    cases l with
    | nil =>
      have hreturn : c ≠ '\r' := by simpa using hlast
      exact lines_cons (Ne.symm hc) fun _ h _ => hreturn h
    | cons d l =>
      have hnot : ∀ r', c = '\r' → d :: l ++ r = '\n' :: r' → False := by
        intro r' _ he
        rw [List.cons_append] at he
        exact hl (by rw [(List.cons.inj he).1]; exact List.mem_cons_self)
      rw [List.cons_append, lines_cons (Ne.symm hc) hnot, ih hl (List.cons_ne_nil d l) (by simpa using hlast)]
      rfl

/-- An unbroken piece stands on one line of a text. -/
theorem Unbroken.lines_of_append (h : Unbroken l) (cs ds : List Char) :
    lines (cs ++ (l ++ ds)) =
      lines (closedLines cs) ++ (openLine cs ++ l ++ (lines ds).headD []) :: (lines ds).tail := by
  have hcs : cs ++ (l ++ ds) = closedLines cs ++ ((openLine cs ++ l) ++ ds) := by
    rw [List.append_assoc, ← List.append_assoc (closedLines cs), closedLines_append_openLine]
  rw [hcs, lines_closedLines_append, (h.prepend (feed_notMem_openLine cs)).lines_append]

/-- A line feed ends the open line, which keeps a carriage return that does not stand right in front of it. -/
theorem lines_ended_by_feed (h : '\n' ∉ l) (hlast : l.getLast? ≠ some '\r') (r : List Char) :
    lines (l ++ '\n' :: r) = l :: lines r := by
  by_cases hne : l = []
  · rw [hne]
    rfl
  · rw [Unbroken.lines_append ⟨h, hne, hlast⟩]
    simp [lines]

theorem feed_notMem_of_mem_lines (h : l ∈ lines cs) : '\n' ∉ l := by
  induction cs using lines.induct generalizing l with
  | case1 => cases h
  | case2 r ih =>
    rcases List.mem_cons.1 h with rfl | h
    · exact List.not_mem_nil
    · exact ih h
  | case3 r ih =>
    rcases List.mem_cons.1 h with rfl | h
    · exact List.not_mem_nil
    · exact ih h
  | case4 c r hc hr hnil ih =>
    rw [lines_cons hc hr, hnil] at h
    rw [List.mem_singleton.1 h]
    simpa using Ne.symm hc
  | case5 c r hc hr m ms hr' ih =>
    rw [lines_cons hc hr, hr'] at h
    rcases List.mem_cons.1 h with rfl | h
    · have hm : '\n' ∉ m := ih (hr' ▸ List.mem_cons_self)
      simpa [hm] using Ne.symm hc
    · exact ih (hr' ▸ List.mem_cons_of_mem m h)

end ScriptRunner.Text
