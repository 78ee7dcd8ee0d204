import ScriptRunner.Proofs.Document.Outcomes
import ScriptRunner.Proofs.Text.Encoding

/-!
# Texts that are cut or continued

Bytes that are a text read the same in front of any others (`decodeUtf8From_append`), so what follows a text is read on
its own (`decodeUtf8_append`). A text that is cut at any byte is either no text, when the cut lies inside of a character,
or it lacks some characters at its end (`exists_rest_of_decodeUtf8`).
-/

namespace ScriptRunner.Text

/-! ## Bytes -/

section Bytes

variable {i : Nat} {bs ts : Bytes} {cs : List Char} {s t : String}

theorem map_append_map_cons (o : Except Utf8Fault (List Char)) (c : Char) (cs : List Char) :
    (o.map (cs ++ ·)).map (c :: ·) = o.map (c :: cs ++ ·) := by
  cases o <;> rfl

/-- Bytes of characters end where they end, whatever follows and wherever they stand. -/
theorem decodeUtf8From_append (h : decodeUtf8From i bs = .ok cs) (j : Nat) (ts : Bytes) :
    decodeUtf8From j (bs ++ ts) = (decodeUtf8From (j + bs.length) ts).map (cs ++ ·) := by
  fun_induction decodeUtf8From i bs generalizing cs j with
  | case1 =>
    cases h
    show decodeUtf8From j ts = (decodeUtf8From j ts).map (fun cs => cs)
    cases decodeUtf8From j ts <;> rfl
  | case2 i a r ha ih =>
    obtain ⟨ds, hds, rfl⟩ := map_eq_ok_iff.1 h
    rw [List.cons_append, decodeUtf8From.eq_def]
    simp only [ha, ↓reduceIte, ih hds, map_append_map_cons, Nat.add_right_comm j 1]
    rfl
  | case4 i a ha hab b r hb ih =>
    obtain ⟨ds, hds, rfl⟩ := map_eq_ok_iff.1 h
    simp only [List.cons_append, decodeUtf8From, ha, hab, hb, and_self, ↓reduceIte, ih hds, map_append_map_cons,
      Nat.add_right_comm j 2]
    rfl
  | case10 i a ha hab hac b c r hb hc ih =>
    obtain ⟨ds, hds, rfl⟩ := map_eq_ok_iff.1 h
    simp only [List.cons_append, decodeUtf8From, ha, hab, hac, hb, hc, and_self, ↓reduceIte, ih hds,
      map_append_map_cons, Nat.add_right_comm j 3]
    rfl
  | case17 i a ha hab hac had b c d r hb hc hd ih =>
    obtain ⟨ds, hds, rfl⟩ := map_eq_ok_iff.1 h
    simp only [List.cons_append, decodeUtf8From, ha, hab, hac, had, hb, hc, hd, and_self, ↓reduceIte, ih hds,
      map_append_map_cons, Nat.add_right_comm j 4]
    rfl
  | _ => cases h

/-- Where bytes stand matters only for the place of a fault. -/
theorem decodeUtf8From_index (h : decodeUtf8From i bs = .ok cs) (j : Nat) : decodeUtf8From j bs = .ok cs := by
  have happend := decodeUtf8From_append h j []
  rw [List.append_nil] at happend
  rw [happend]
  show Except.ok (cs ++ []) = _
  rw [List.append_nil]

/-- No bytes but none are a text without characters. -/
theorem eq_nil_of_decodeUtf8From (h : decodeUtf8From i bs = .ok []) : bs = [] := by
  unfold decodeUtf8From at h
  repeat' split at h
  · rfl
  all_goals first
    | cases h
    | obtain ⟨ds, -, he⟩ := map_eq_ok_iff.1 h
      cases he

/-- **What follows a text** is read on its own. -/
theorem decodeUtf8_append (h : decodeUtf8 bs = .ok s) :
    decodeUtf8 (bs ++ ts) = .ok t ↔ ∃ u, decodeUtf8 ts = .ok u ∧ s ++ u = t := by
  obtain ⟨cs, hcs, rfl⟩ := map_eq_ok_iff.1 h
  rw [decodeUtf8, decodeUtf8From_append hcs 0 ts, map_eq_ok_iff]
  constructor
  · rintro ⟨ds, hds, rfl⟩
    obtain ⟨es, hes, rfl⟩ := map_eq_ok_iff.1 hds
    exact ⟨String.ofList es, map_eq_ok_iff.2 ⟨es, decodeUtf8From_index hes 0, rfl⟩, String.ofList_append.symm⟩
  · rintro ⟨u, hu, rfl⟩
    obtain ⟨es, hes, rfl⟩ := map_eq_ok_iff.1 hu
    exact ⟨cs ++ es, map_eq_ok_iff.2 ⟨es, decodeUtf8From_index hes _, rfl⟩, String.ofList_append⟩

/-- **A text that is cut at any byte** lacks some characters, if it still is a text. -/
theorem exists_rest_of_decodeUtf8 (h : decodeUtf8 bs = .ok s) (ht : bs ++ ts = encodeUtf8 t) (hts : ts ≠ []) :
    ∃ u, u ≠ "" ∧ s ++ u = t := by
  have hread : decodeUtf8 (bs ++ ts) = .ok t := ht ▸ decodeUtf8_encodeUtf8 t
  obtain ⟨u, hu, hsu⟩ := (decodeUtf8_append h).1 hread
  refine ⟨u, ?_, hsu⟩
  rintro rfl
  obtain ⟨es, hes, he⟩ := map_eq_ok_iff.1 hu
  obtain rfl : es = [] := by simpa using he
  exact hts (eq_nil_of_decodeUtf8From hes)

theorem encodeUtf8_append (s t : String) : encodeUtf8 (s ++ t) = encodeUtf8 s ++ encodeUtf8 t := by
  rw [encodeUtf8, String.toList_append, List.flatMap_append]
  rfl

end Bytes

end ScriptRunner.Text
