import Mathlib.Data.List.Induction
import ScriptRunner.Text.Blank

/-!
# Trimming

Trimming stops at the first and at the last character that is not of the class (`strip_append`). What it leaves does not
end in a character of the class (`eq_false_of_getLast?_strip`), and of such a text it takes away a part in front and
nothing else (`strip_of_last`). Other characters than those of the class all stay (`filter_strip`), so a text of them
stays as it is (`strip_eq_self`).
-/

namespace ScriptRunner.Text

variable {p q : Char → Bool} {c : Char} {cs ds : List Char}

theorem dropWhile_append_cons (h : p c = false) :
    (cs ++ c :: ds).dropWhile p = cs.dropWhile p ++ c :: ds := by
  rw [List.dropWhile_append]
  split
  · rename_i hempty
    rw [List.isEmpty_iff.1 hempty, List.dropWhile_cons_of_neg (by simp [h]), List.nil_append]
  · rfl

theorem stripEnd_append_cons (h : p c = false) : stripEnd p (cs ++ c :: ds) = cs ++ c :: stripEnd p ds := by
  simp [stripEnd, dropWhile_append_cons h]

theorem strip_append_cons (h : p c = false) :
    strip p (cs ++ c :: ds) = cs.dropWhile p ++ c :: stripEnd p ds := by
  rw [strip, dropWhile_append_cons h, stripEnd_append_cons h]

/-- Stripping stops at a piece whose ends are not of the class. -/
theorem strip_append {l : List Char} (hne : l ≠ []) (hhead : ∀ c, l.head? = some c → p c = false)
    (hlast : ∀ c, l.getLast? = some c → p c = false) :
    strip p (cs ++ (l ++ ds)) = cs.dropWhile p ++ (l ++ stripEnd p ds) := by
  have hfront : (cs ++ (l ++ ds)).dropWhile p = cs.dropWhile p ++ (l ++ ds) := by
    obtain ⟨a, r, rfl⟩ := List.exists_cons_of_ne_nil hne
    exact dropWhile_append_cons (hhead a rfl)
  obtain ⟨r, a, rfl⟩ := (List.eq_nil_or_concat l).resolve_left hne
  have ha : p a = false := hlast a (by simp)
  rw [strip, hfront, List.concat_eq_append, List.append_assoc, List.singleton_append, ← List.append_assoc,
    stripEnd_append_cons ha]
  simp

theorem filter_dropWhile (h : ∀ c, p c = true → q c = false) : (cs.dropWhile p).filter q = cs.filter q := by
  induction cs with
  | nil => rfl
  | cons c cs ih =>
    by_cases hc : p c = true
    · rw [List.dropWhile_cons_of_pos hc, List.filter_cons_of_neg (by simp [h c hc]), ih]
    · rw [List.dropWhile_cons_of_neg hc]

theorem filter_strip (h : ∀ c, p c = true → q c = false) : (strip p cs).filter q = cs.filter q := by
  rw [strip, stripEnd, List.filter_reverse, filter_dropWhile h, ← List.filter_reverse, List.reverse_reverse,
    filter_dropWhile h]

/-! ## Ends -/

/-- What is left does not end in a character of the class. -/
theorem eq_false_of_getLast?_strip (h : (strip p cs).getLast? = some c) : p c = false := by
  rw [strip, stripEnd, List.getLast?_reverse] at h
  have hhead := List.head?_dropWhile_not p (cs.dropWhile p).reverse
  rw [h] at hhead
  exact hhead

theorem stripEnd_of_last (h : ∀ c, cs.getLast? = some c → p c = false) : stripEnd p cs = cs := by
  rcases List.eq_nil_or_concat cs with rfl | ⟨front, c, rfl⟩
  · rfl
  · have hc : p c = false := h c (by simp)
    rw [List.concat_eq_append, stripEnd_append_cons hc]
    rfl

/-- A text that does not end in a character of the class is what was trimmed off it in front, and then the rest. -/
theorem strip_of_last (h : ∀ c, cs.getLast? = some c → p c = false) : cs = cs.takeWhile p ++ strip p cs := by
  have hlast : ∀ c, (cs.dropWhile p).getLast? = some c → p c = false := by
    intro c hc
    refine h c ?_
    rw [← List.takeWhile_append_dropWhile (p := p) (l := cs), List.getLast?_append, hc, Option.some_or]
  rw [strip, stripEnd_of_last hlast, List.takeWhile_append_dropWhile]

theorem strip_eq_self (h : ∀ c ∈ cs, p c = false) : strip p cs = cs := by
  have hfront : cs.takeWhile p = [] := by
    cases cs with
    | nil => rfl
    | cons c cs => exact List.takeWhile_cons_of_neg (by simp [h c List.mem_cons_self])
  have hsplit := strip_of_last fun c (hc : cs.getLast? = some c) => h c (List.mem_of_getLast? hc)
  rw [hfront, List.nil_append] at hsplit
  exact hsplit.symm

/-- Characters of the class in front of a text that neither starts nor ends in one. -/
theorem strip_gap_append {gap l : List Char} (hgap : ∀ c ∈ gap, p c = true) (hne : l ≠ [])
    (hhead : ∀ c, l.head? = some c → p c = false) (hlast : ∀ c, l.getLast? = some c → p c = false) :
    strip p (gap ++ l) = l := by
  have hstrip : strip p ([] ++ (l ++ [])) = _ := strip_append hne hhead hlast
  rw [List.append_nil, List.nil_append] at hstrip
  rw [strip, List.dropWhile_append_of_pos hgap]
  exact hstrip.trans (List.append_nil l)

end ScriptRunner.Text
