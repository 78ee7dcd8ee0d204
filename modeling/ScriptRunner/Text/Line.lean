/-!
# Lines

A line ends at a line feed, which may follow a carriage return; the last line needs no end. Joining puts a line feed
between two lines and none after the last.
-/

namespace ScriptRunner.Text

/-- The lines of a text, without their ends. -/
def lines : List Char → List (List Char)
  | [] => []
  | '\n' :: r => [] :: lines r
  | '\r' :: '\n' :: r => [] :: lines r
  | c :: r =>
    match lines r with
    | [] => [[c]]
    | l :: ls => (c :: l) :: ls

def joinLines (ls : List (List Char)) : List Char :=
  List.intercalate ['\n'] ls

/-- The pieces between line feeds; a text without one is a single piece. -/
def splitAtFeeds : List Char → List (List Char)
  | [] => [[]]
  | '\n' :: r => [] :: splitAtFeeds r
  | c :: r =>
    match splitAtFeeds r with
    | [] => [[c]]
    | l :: ls => (c :: l) :: ls

theorem splitAtFeeds_ne_nil (cs : List Char) : splitAtFeeds cs ≠ [] := by
  fun_induction splitAtFeeds cs <;> simp_all

theorem joinLines_cons_cons (l m : List Char) (ls : List (List Char)) :
    joinLines (l :: m :: ls) = l ++ '\n' :: joinLines (m :: ls) := by
  simp [joinLines, List.intercalate]

/-- Cutting at the line feeds loses nothing. -/
theorem joinLines_splitAtFeeds (cs : List Char) : joinLines (splitAtFeeds cs) = cs := by
  fun_induction splitAtFeeds cs with
  | case1 => rfl
  | case2 r ih =>
    cases h : splitAtFeeds r with
    | nil => exact absurd h (splitAtFeeds_ne_nil r)
    | cons m ls => rw [joinLines_cons_cons, ← h, ih]; rfl
  | case3 c r _ h _ => exact absurd h (splitAtFeeds_ne_nil r)
  | case4 c r _ l ls h ih =>
    rw [h] at ih
    rw [← ih]
    cases ls <;> simp [joinLines, List.intercalate]

end ScriptRunner.Text
