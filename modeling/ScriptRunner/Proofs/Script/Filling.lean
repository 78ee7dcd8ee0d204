import Mathlib.Data.List.Basic
import ScriptRunner.Proofs.Script.Naming

/-!
# Texts with places for calls

The placeholders cut a text into pieces (`pieces`). Filling joins the pieces with the lines of the calls (`fillBody_eq`),
so what the calls bring along is never filled itself, and a text with a place shows which lines it was filled with
(`intercalate_injective`). The lines show the callees again (`callees_of_callLines`), since a call takes up one line.
-/

namespace ScriptRunner.Script

/-! ## Pieces -/

/-- What stands before, between and after the placeholders. -/
def pieces : List Char → List (List Char)
  | '%' :: 'b' :: 'o' :: 'd' :: 'y' :: '%' :: r => [] :: pieces r
  | c :: r => (pieces r).modifyHead (c :: ·)
  | [] => [[]]

section
variable {α : Type} {x y : List α} {ls : List (List α)}

theorem intercalate_modifyHead_cons (x : List α) (a : α) (h : ls ≠ []) :
    x.intercalate (ls.modifyHead (a :: ·)) = a :: x.intercalate ls := by
  cases ls with
  | nil => exact absurd rfl h
  | cons l ls => cases ls <;> simp [List.intercalate]

theorem length_intercalate (x : List α) (ls : List (List α)) :
    (x.intercalate ls).length = (ls.map List.length).sum + (ls.length - 1) * x.length := by
  induction ls with
  | nil => simp
  | cons l ls ih =>
    cases ls with
    | nil => simp
    | cons m ls =>
      rw [List.intercalate_cons_cons, List.length_append, List.length_append, ih]
      simp only [List.map_cons, List.sum_cons, List.length_cons, Nat.add_sub_cancel]
      ring

theorem intercalate_concat (x : List α) (ls : List (List α)) (l : List α) :
    x.intercalate (ls ++ [l]) = (ls.flatMap fun k => k ++ x) ++ l := by
  induction ls with
  | nil => simp
  | cons k ls ih =>
    obtain ⟨m, ms, hm⟩ := List.exists_cons_of_ne_nil (List.append_ne_nil_of_right_ne_nil ls (List.cons_ne_nil l []))
    rw [List.cons_append, hm, List.intercalate_cons_cons, ← hm, ih, List.flatMap_cons]
    simp only [List.append_assoc]

/-- Two or more lists show what they were joined with. -/
theorem intercalate_injective (hls : 1 < ls.length) (h : x.intercalate ls = y.intercalate ls) : x = y := by
  have hlen : (ls.length - 1) * x.length = (ls.length - 1) * y.length := by
    have hl := congrArg List.length h
    rw [length_intercalate, length_intercalate] at hl
    omega
  have hxy : x.length = y.length := Nat.eq_of_mul_eq_mul_left (by omega) hlen
  match ls, hls, h with
  | l :: m :: ls, _, h =>
    rw [List.intercalate_cons_cons, List.intercalate_cons_cons, List.append_assoc, List.append_assoc] at h
    exact List.append_inj_left (List.append_cancel_left h) hxy

end

theorem pieces_ne_nil (cs : List Char) : pieces cs ≠ [] := by
  fun_induction pieces cs with
  | case1 r ih => exact List.cons_ne_nil _ _
  | case2 c r _ ih => simpa using ih
  | case3 => exact List.cons_ne_nil _ _

/-- The pieces are all there is between the placeholders. -/
theorem intercalate_pieces (cs : List Char) : placeholder.toList.intercalate (pieces cs) = cs := by
  fun_induction pieces cs with
  | case1 r ih =>
    obtain ⟨l, ls, hl⟩ := List.exists_cons_of_ne_nil (pieces_ne_nil r)
    rw [hl, List.intercalate_cons_cons, ← hl, ih]
    rfl
  | case2 c r _ ih => rw [intercalate_modifyHead_cons _ _ (pieces_ne_nil r), ih]
  | case3 => rfl

/-- Filling joins the pieces with the filling, which is not looked at. -/
theorem fillBody_eq (filling cs : List Char) : fillBody filling cs = filling.intercalate (pieces cs) := by
  fun_induction pieces cs with
  | case1 r ih =>
    obtain ⟨l, ls, hl⟩ := List.exists_cons_of_ne_nil (pieces_ne_nil r)
    rw [fillBody, ih, hl, List.intercalate_cons_cons]
    rfl
  | case2 c r hne ih => rw [fillBody.eq_2 _ _ _ hne, ih, intercalate_modifyHead_cons _ _ (pieces_ne_nil r)]
  | case3 => rfl

/-- A filling that looks like a placeholder stays. -/
example : fillBody "%body%".toList "<%body%|%body%>".toList = "<%body%|%body%>".toList := by decide

theorem hasPlaceholder_eq_true_iff {cs : List Char} : hasPlaceholder cs = true ↔ 1 < (pieces cs).length := by
  fun_induction pieces cs with
  | case1 r ih =>
    have hpos : 0 < (pieces r).length := List.length_pos_of_ne_nil (pieces_ne_nil r)
    simp [hasPlaceholder, hpos]
  | case2 c r hne ih => simpa [hasPlaceholder.eq_2 _ _ hne] using ih
  | case3 => simp [hasPlaceholder]

/-- A text without a placeholder stays as it is. -/
theorem fillBody_of_hasPlaceholder_eq_false {cs : List Char} (h : hasPlaceholder cs = false) (filling : List Char) :
    fillBody filling cs = cs := by
  fun_induction hasPlaceholder cs with
  | case1 r => cases h
  | case2 c r hne ih => rw [fillBody.eq_2 _ _ _ hne, ih h]
  | case3 => rfl

/-- No placeholder goes over a character that placeholders do not have. -/
theorem fillBody_append_cons {a : Char} (ha : a ∉ placeholder.toList) (filling cs ds : List Char) :
    fillBody filling (cs ++ a :: ds) = fillBody filling cs ++ a :: fillBody filling ds := by
  have hfront : ∀ {c : Char} {r r' : List Char}, c :: r ++ a :: ds = placeholder.toList ++ r' →
      ∃ s, c :: r = placeholder.toList ++ s := by
    intro c r r' he
    rcases List.append_eq_append_iff.1 he with ⟨s, hs, hrest⟩ | ⟨s, hs, -⟩
    · cases s with
      | nil => exact ⟨[], by rw [hs, List.append_nil, List.append_nil]⟩
      | cons b s =>
        rw [List.cons_append] at hrest
        rw [hs, (List.cons.inj hrest).1] at ha
        exact absurd (List.mem_append_right _ List.mem_cons_self) ha
    · exact ⟨s, hs⟩
  fun_induction fillBody filling cs with
  | case1 r ih =>
    show filling ++ fillBody filling (r ++ a :: ds) = filling ++ fillBody filling r ++ a :: fillBody filling ds
    rw [ih, List.append_assoc]
  | case2 c r hne ih =>
    have hne' : ∀ r', c = '%' → r ++ a :: ds = 'b' :: 'o' :: 'd' :: 'y' :: '%' :: r' → False := by
      rintro r' rfl he
      obtain ⟨s, hs⟩ := hfront (congrArg (List.cons '%') he)
      exact hne s rfl (List.cons.inj hs).2
    rw [List.cons_append, fillBody.eq_2 _ _ _ hne', ih]
    rfl
  | case3 =>
    have hne : ∀ r', a = '%' → ds = 'b' :: 'o' :: 'd' :: 'y' :: '%' :: r' → False := by
      rintro r' rfl -
      exact ha List.mem_cons_self
    rw [List.nil_append, fillBody.eq_2 _ _ _ hne]
    rfl

/-! ## The lines of calls -/

theorem notMem_intercalate {α : Type} {a : α} {x : List α} {ls : List (List α)} (hx : a ∉ x) (hls : ∀ l ∈ ls, a ∉ l) :
    a ∉ x.intercalate ls := by
  induction ls with
  | nil => exact List.not_mem_nil
  | cons l ls ih =>
    have hl : a ∉ l := hls l List.mem_cons_self
    cases ls with
    | nil => simpa using hl
    | cons m ls =>
      have hm : a ∉ x.intercalate (m :: ls) := ih fun k hk => hls k (List.mem_cons_of_mem l hk)
      simp [List.intercalate_cons_cons, hx, hl, hm]

namespace Call

/-- A call that takes up one line and whose callee ends at the parenthesis. -/
structure Plain (c : Call) : Prop where
  callee : IsName c.callee
  arguments : ∀ a ∈ c.arguments, '\n' ∉ a.toList

theorem toList_text (c : Call) :
    c.text.toList = c.callee.toList ++ '(' :: ((", ".intercalate c.arguments).toList ++ [')', ';']) := by
  have hopen : "(".toList = ['('] := rfl
  have hclose : ");".toList = [')', ';'] := rfl
  simp [text, hopen, hclose]

theorem Plain.feed_notMem_text {c : Call} (h : c.Plain) : '\n' ∉ c.text.toList := by
  have hcallee : '\n' ∉ c.callee.toList := fun hm => absurd (h.callee _ hm) (by decide)
  have harguments : '\n' ∉ [',', ' '].intercalate (c.arguments.map String.toList) := by
    refine notMem_intercalate (by decide) fun l hl => ?_
    obtain ⟨a, ha, rfl⟩ := List.mem_map.1 hl
    exact h.arguments a ha
  simp [toList_text, hcallee, harguments]

theorem Plain.takeWhile_text {c : Call} (h : c.Plain) : c.text.toList.takeWhile isNameChar = c.callee.toList := by
  have hparen : isNameChar '(' = false := by decide
  rw [toList_text, List.takeWhile_append_of_pos h.callee, List.takeWhile_cons_of_neg (by simp [hparen]),
    List.append_nil]

end Call

theorem callLines_eq_nil_iff {calls : List Call} : callLines calls = [] ↔ calls = [] := by
  refine ⟨fun h => ?_, fun h => h ▸ rfl⟩
  match calls, h with
  | [], _ => rfl
  | c :: cs, h =>
    have hlength := congrArg List.length h
    cases cs <;> simp [callLines, Text.joinLines, Call.toList_text, List.intercalate] at hlength

theorem splitOn_callLines {calls : List Call} (h : ∀ c ∈ calls, c.Plain) (hne : calls ≠ []) :
    (callLines calls).splitOn '\n' = calls.map fun c => c.text.toList := by
  refine List.splitOn_intercalate '\n' (fun l hl => ?_) (by simpa using hne)
  obtain ⟨c, hc, rfl⟩ := List.mem_map.1 hl
  exact (h c hc).feed_notMem_text

/-- The lines of calls show whom they call. -/
theorem callees_of_callLines {cs ds : List Call} (hcs : ∀ c ∈ cs, c.Plain) (hds : ∀ d ∈ ds, d.Plain)
    (h : callLines cs = callLines ds) : cs.map Call.callee = ds.map Call.callee := by
  by_cases hne : cs = []
  · have hd : ds = [] := callLines_eq_nil_iff.1 (h ▸ callLines_eq_nil_iff.2 hne)
    rw [hne, hd]
  · have hne' : ds ≠ [] := fun hd => hne (callLines_eq_nil_iff.1 (h ▸ callLines_eq_nil_iff.2 hd))
    have htexts : cs.map (fun c => c.text.toList) = ds.map fun d => d.text.toList := by
      rw [← splitOn_callLines hcs hne, h, splitOn_callLines hds hne']
    have hcallees : ∀ {es : List Call}, (∀ e ∈ es, e.Plain) →
        es.map Call.callee = (es.map fun e => e.text.toList).map fun l => String.ofList (l.takeWhile isNameChar) := by
      intro es hes
      rw [List.map_map]
      refine List.map_congr_left fun e he => ?_
      simp [(hes e he).takeWhile_text]
    rw [hcallees hcs, hcallees hds, htexts]

end ScriptRunner.Script
