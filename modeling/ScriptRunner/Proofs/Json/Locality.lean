import ScriptRunner.Proofs.Json.Printed

/-!
# A text that is cut short is not read whole

Reading goes from left to right and looks no further than the end of a value: whatever has been read whole reads the same
in front of any text (`readValue_append`, `readItems_append`, `readMembers_append`). Only a numeral needs something
behind it, since more digits may follow. So an object whose text is cut short is damaged (`not_whole_of_cut_object`):
read whole, it would end where the cut is and also where its text ends.
-/

namespace ScriptRunner.Json

variable {cs r s : List Char} {c : Char}

theorem skipGap_append (h : skipGap cs = c :: r) (s : List Char) : skipGap (cs ++ s) = c :: (r ++ s) := by
  unfold skipGap at h ⊢
  rw [List.dropWhile_append, h]
  rfl

/-! ## Strings -/

section Strings

variable {x : Option (List Char)}

theorem map_addChar_eq_some_iff {o : Option (Option (List Char) × List Char)} {u : Char} :
    o.map (addChar u) = some (x, r) ↔ ∃ y, o = some (y, r) ∧ y.map (u :: ·) = x := by
  cases o with
  | none => simp
  | some p => simp [addChar, Prod.ext_iff, and_comm]

theorem map_spoil_eq_some_iff {o : Option (Option (List Char) × List Char)} :
    o.map spoil = some (x, r) ↔ ∃ y, o = some (y, r) ∧ none = x := by
  cases o with
  | none => simp
  | some p => simp [spoil, Prod.ext_iff, and_comm]

/-- The second half of a surrogate pair that only what follows completes is not the end of a string. -/
theorem stringBody?_eq_none_of_torn {a b c d : Char} {t : List Char}
    (hr : ∀ e f g h u, r = '\\' :: 'u' :: e :: f :: g :: h :: u → False)
    (ht : r ++ s = '\\' :: 'u' :: a :: b :: c :: d :: t) : stringBody? r = none := by
  rcases r with _ | ⟨c₁, _ | ⟨c₂, _ | ⟨c₃, _ | ⟨c₄, _ | ⟨c₅, _ | ⟨c₆, u⟩⟩⟩⟩⟩⟩
  case cons.cons.cons.cons.cons.cons =>
    simp only [List.cons_append, List.cons.injEq] at ht
    exact (hr c₃ c₄ c₅ c₆ u (by rw [ht.1, ht.2.1])).elim
  all_goals simp_all [stringBody?, unescape?]

/-- A string that has been read ends where it ends, whatever follows. -/
theorem stringBody?_append (h : stringBody? cs = some (x, r)) (s : List Char) :
    stringBody? (cs ++ s) = some (x, r ++ s) := by
  fun_induction stringBody? cs generalizing x r with
  | case1 => cases h
  | case2 r =>
    obtain ⟨rfl, rfl⟩ := Prod.mk.inj (Option.some.inj h)
    rfl
  | case3 => cases h
  | case4 => cases h
  | case5 a b c d n hn hhigh e f g k t m hm hlow ih =>
    obtain ⟨y, hy, rfl⟩ := map_addChar_eq_some_iff.1 h
    simp only [List.cons_append, stringBody?, hn, hhigh, hm, hlow, ih hy, ↓reduceIte]
    rfl
  | case6 a b c d n hn hhigh e f g k t m hm hlow ih =>
    obtain ⟨y, hy, rfl⟩ := map_spoil_eq_some_iff.1 h
    simp only [List.cons_append, stringBody?, hn, hhigh, hm, hlow, ih hy, ↓reduceIte]
    rfl
  | case7 a b c d n hn hhigh t ht ih =>
    obtain ⟨y, hy, rfl⟩ := map_spoil_eq_some_iff.1 h
    simp only [List.cons_append]
    rw [stringBody?]
    simp only [hn, hhigh, ↓reduceIte]
    split
    · rename_i he
      cases (stringBody?_eq_none_of_torn ht he).symm.trans hy
    · rw [ih hy]
      rfl
  | case8 a b c d t n hn hhigh hlow ih =>
    obtain ⟨y, hy, rfl⟩ := map_spoil_eq_some_iff.1 h
    simp only [List.cons_append, stringBody?, hn, hhigh, hlow, ih hy, ↓reduceIte]
    rfl
  | case9 a b c d t n hn hhigh hlow ih =>
    obtain ⟨y, hy, rfl⟩ := map_addChar_eq_some_iff.1 h
    simp only [List.cons_append, stringBody?, hn, hhigh, hlow, ih hy]
    rfl
  | case10 => cases h
  | case11 c t hc u hu ih =>
    obtain ⟨y, hy, rfl⟩ := map_addChar_eq_some_iff.1 h
    rw [List.cons_append, List.cons_append, stringBody?]
    · simp only [hu, ih hy]
      rfl
    · rintro _ _ _ _ _ rfl _
      cases hu
  | case12 => cases h
  | case13 c t hquote hnumber hletter hc ih =>
    obtain ⟨y, hy, rfl⟩ := map_addChar_eq_some_iff.1 h
    have hslash : c ≠ '\\' := by
      rintro rfl
      cases t with
      | nil => cases hy
      | cons d t => exact hletter d t rfl rfl
    rw [List.cons_append, stringBody?]
    · simp only [hc, ih hy, ↓reduceIte]
      rfl
    · exact hquote
    · exact fun _ _ _ _ _ he _ => hslash he
    · exact fun _ _ he _ => hslash he

end Strings

/-! ## Numerals -/

section Numerals

variable {ds : List Char}

theorem eq_append_of_digits? (h : digits? cs = some (ds, r)) :
    cs = ds ++ r ∧ Decimal.IsDigits ds ∧ ∀ c ∈ r.head?, c.isDigit = false := by
  unfold digits? at h
  split at h
  · cases h
  · rename_i hne
    obtain ⟨rfl, rfl⟩ := Prod.mk.inj (Option.some.inj h)
    have hdigits : ∀ c ∈ cs.takeWhile Char.isDigit, c.isDigit = true := List.all_eq_true.1 List.all_takeWhile
    refine ⟨List.takeWhile_append_dropWhile.symm, ⟨hne, hdigits⟩, fun c hc => ?_⟩
    have hhead := List.head?_dropWhile_not Char.isDigit cs
    rw [hc] at hhead
    exact hhead

theorem digits?_append_of_ne_nil (h : digits? cs = some (ds, r)) (hr : r ≠ []) (s : List Char) :
    digits? (cs ++ s) = some (ds, r ++ s) := by
  obtain ⟨rfl, hds, hhead⟩ := eq_append_of_digits? h
  rw [List.append_assoc]
  refine digits?_append hds fun c hc => hhead c ?_
  obtain ⟨d, t, rfl⟩ := List.exists_cons_of_ne_nil hr
  exact hc

theorem whole?_append_of_ne_nil (h : whole? cs = some (ds, r)) (hr : r ≠ []) (s : List Char) :
    whole? (cs ++ s) = some (ds, r ++ s) := by
  unfold whole? at h
  split at h
  · cases h
  · rename_i hzero
    rw [whole?, digits?_append_of_ne_nil h hr s]
    split
    · rename_i d t u he
      obtain ⟨rfl, -⟩ := Prod.mk.inj (Option.some.inj he)
      exact absurd h (hzero d t r)
    · rfl

theorem fraction?_append_of_ne_nil {f : Option (List Char)} (h : fraction? cs = some (f, r)) (hr : r ≠ [])
    (s : List Char) : fraction? (cs ++ s) = some (f, r ++ s) := by
  unfold fraction? at h
  split at h
  · obtain ⟨⟨ds, t⟩, hds, he⟩ := Option.map_eq_some_iff.1 h
    obtain ⟨rfl, rfl⟩ := Prod.mk.inj he
    simp only [List.cons_append, fraction?, digits?_append_of_ne_nil hds hr s, Option.map_some]
  · rename_i hpoint
    obtain ⟨rfl, rfl⟩ := Prod.mk.inj (Option.some.inj h)
    obtain ⟨c, t, rfl⟩ := List.exists_cons_of_ne_nil hr
    rw [List.cons_append, fraction?]
    · rintro _ ⟨⟩
      exact hpoint t rfl

theorem exponent?_append_of_ne_nil {e : Option (Bool × List Char)} (h : exponent? cs = some (e, r))
    (hr : r ≠ []) (s : List Char) : exponent? (cs ++ s) = some (e, r ++ s) := by
  cases cs with
  | nil =>
    obtain ⟨-, rfl⟩ := Prod.mk.inj (Option.some.inj h)
    exact absurd rfl hr
  | cons c t =>
    rw [List.cons_append]
    unfold exponent? at h ⊢
    simp only at h ⊢
    split at h
    · rename_i hc
      rw [if_pos hc]
      obtain ⟨⟨ds, u⟩, hds, he⟩ := Option.map_eq_some_iff.1 h
      obtain ⟨rfl, rfl⟩ := Prod.mk.inj he
      have hdigits := digits?_append_of_ne_nil hds hr s
      cases t with
      | nil => cases hds
      | cons d t =>
        by_cases hplus : d = '+'
        · subst hplus
          exact Option.map_eq_some_iff.2 ⟨_, hdigits, rfl⟩
        · by_cases hminus : d = '-'
          · subst hminus
            exact Option.map_eq_some_iff.2 ⟨_, hdigits, rfl⟩
          · simp [hplus, hminus] at hdigits ⊢
            exact hdigits
    · rename_i hc
      obtain ⟨rfl, rfl⟩ := Prod.mk.inj (Option.some.inj h)
      rw [if_neg hc]
      rfl

theorem unsigned?_append_of_ne_nil {negative : Bool} {x : Numeral} (h : Numeral.unsigned? negative cs = some (x, r))
    (hr : r ≠ []) (s : List Char) : Numeral.unsigned? negative (cs ++ s) = some (x, r ++ s) := by
  obtain ⟨⟨whole, t⟩, hwhole, h⟩ := Option.bind_eq_some_iff.1 h
  obtain ⟨⟨fraction, u⟩, hfraction, h⟩ := Option.bind_eq_some_iff.1 h
  obtain ⟨⟨exponent, v⟩, hexponent, h⟩ := Option.bind_eq_some_iff.1 h
  obtain ⟨rfl, rfl⟩ := Prod.mk.inj (Option.some.inj h)
  have hu : u ≠ [] := by
    rintro rfl
    exact hr (Prod.mk.inj (Option.some.inj hexponent)).2.symm
  have ht : t ≠ [] := by
    rintro rfl
    exact hu (Prod.mk.inj (Option.some.inj hfraction)).2.symm
  rw [Numeral.unsigned?, whole?_append_of_ne_nil hwhole ht s]
  simp only [Option.bind_eq_bind, Option.bind_some, fraction?_append_of_ne_nil hfraction hu s,
    exponent?_append_of_ne_nil hexponent hr s]

/-- A numeral that something follows ends where it ends, whatever follows behind that. -/
theorem numeral?_append_of_ne_nil {x : Numeral} (h : numeral? cs = some (x, r)) (hr : r ≠ []) (s : List Char) :
    numeral? (cs ++ s) = some (x, r ++ s) := by
  cases cs with
  | nil => cases h
  | cons d t =>
    by_cases hd : d = '-'
    · subst hd
      exact unsigned?_append_of_ne_nil h hr s
    · rw [Numeral.numeral?_cons hd] at h
      rw [List.cons_append, Numeral.numeral?_cons hd]
      exact unsigned?_append_of_ne_nil h hr s

end Numerals

/-! ## Values -/

section Values

open Document (isWhole areWhole areWholeEntries)

variable {n : Nat}

theorem exists_cons_of_numeral? {x : Numeral} (h : numeral? cs = some (x, r)) :
    ∃ c t, cs = c :: t ∧ (c = '-' ∨ c.isDigit = true) := by
  cases cs with
  | nil => cases h
  | cons c t =>
    refine ⟨c, t, rfl, ?_⟩
    by_cases hc : c = '-'
    · exact .inl hc
    · rw [Numeral.numeral?_cons hc] at h
      obtain ⟨⟨whole, u⟩, hwhole, -⟩ := Option.bind_eq_some_iff.1 h
      unfold whole? at hwhole
      split at hwhole
      · cases hwhole
      · obtain ⟨he, hds, -⟩ := eq_append_of_digits? hwhole
        obtain ⟨d, ds, rfl, hd⟩ := hds.exists_cons
        exact .inr ((List.cons.inj he).1 ▸ hd)

theorem ne_nil_of_skipGap (h : skipGap cs = c :: r) : cs ≠ [] := by
  rintro rfl
  cases h

theorem readValue_nil : ∀ n, readValue n [] = (.damaged, [])
  | 0 => rfl
  | _ + 1 => rfl

theorem not_whole_readItems_nil : ∀ n, areWhole (readItems n []).1 = false
  | 0 => rfl
  | n + 1 => by rw [readItems, readValue_nil]; rfl

theorem not_whole_readMembers_nil : ∀ n, areWholeEntries (readMembers n []).1 = false
  | 0 => rfl
  | _ + 1 => rfl

theorem isWhole_cons {d : Written} {ds : List Written} (h : areWhole (d :: ds) = true) :
    d.isWhole = true ∧ areWhole ds = true := by
  simpa [areWhole] using h

theorem isWhole_entries_cons {k d : Written} {es : List (Written × Written)}
    (h : areWholeEntries ((k, d) :: es) = true) : d.isWhole = true ∧ areWholeEntries es = true := by
  simp only [areWholeEntries, Bool.and_eq_true] at h
  exact ⟨h.1.2, h.2⟩

mutual

/-- A value that has been read whole ends where it ends, whatever follows; behind a numeral something has to stand. -/
theorem readValue_append : ∀ {n m : Nat} {cs r : List Char} {d : Written}, readValue n cs = (d, r) →
    d.isWhole = true → (∀ x, d = .scalar (.number x) → r ≠ []) → n ≤ m → ∀ s, readValue m (cs ++ s) = (d, r ++ s)
  | 0, _, _, _, _, h, hd, _, _, _ => by
    obtain ⟨rfl, rfl⟩ := Prod.mk.inj h
    cases hd
  | n + 1, 0, _, _, _, _, _, _, hm, _ => by cases hm
  | n + 1, m + 1, cs, r, d, h, hd, hr, hm, s => by
    have hm := Nat.le_of_succ_le_succ hm
    rw [readValue] at h
    split at h
    · rename_i t heq
      rw [readValue, skipGap_append heq]
      simp only
      split at h
      · rename_i u hu
        obtain ⟨rfl, rfl⟩ := Prod.mk.inj h
        simp only [skipGap_append hu]
      · rename_i hbrace
        rcases hes : readMembers n (skipGap t) with ⟨es, u⟩
        rw [hes] at h
        obtain ⟨rfl, rfl⟩ := Prod.mk.inj h
        rcases ht : skipGap t with _ | ⟨c, v⟩
        · have hnone := not_whole_readMembers_nil n
          rw [← ht, hes] at hnone
          cases hnone.symm.trans hd
        · have hmembers := readMembers_append hes hd hm s
          rw [ht, List.cons_append] at hmembers
          rw [skipGap_append ht]
          split
          · rename_i heq'
            obtain ⟨rfl, -⟩ := List.cons.inj heq'
            exact (hbrace v ht).elim
          · rw [hmembers]
    · rename_i t heq
      rw [readValue, skipGap_append heq]
      simp only
      split at h
      · rename_i u hu
        obtain ⟨rfl, rfl⟩ := Prod.mk.inj h
        simp only [skipGap_append hu]
      · rename_i hbracket
        rcases hds : readItems n (skipGap t) with ⟨ds, u⟩
        rw [hds] at h
        obtain ⟨rfl, rfl⟩ := Prod.mk.inj h
        rcases ht : skipGap t with _ | ⟨c, v⟩
        · have hnone := not_whole_readItems_nil n
          rw [← ht, hds] at hnone
          cases hnone.symm.trans hd
        · have hitems := readItems_append hds hd hm s
          rw [ht, List.cons_append] at hitems
          rw [skipGap_append ht]
          split
          · rename_i heq'
            obtain ⟨rfl, -⟩ := List.cons.inj heq'
            exact (hbracket v ht).elim
          · rw [hitems]
    · rename_i t heq
      rw [readValue, skipGap_append heq]
      simp only
      split at h
      · rename_i x u hx
        obtain ⟨rfl, rfl⟩ := Prod.mk.inj h
        rw [stringBody?_append hx]
      · obtain ⟨rfl, rfl⟩ := Prod.mk.inj h
        cases hd
    · rename_i t heq
      obtain ⟨rfl, rfl⟩ := Prod.mk.inj h
      rw [readValue, skipGap_append heq]
      rfl
    · rename_i t heq
      obtain ⟨rfl, rfl⟩ := Prod.mk.inj h
      rw [readValue, skipGap_append heq]
      rfl
    · rename_i t heq
      obtain ⟨rfl, rfl⟩ := Prod.mk.inj h
      rw [readValue, skipGap_append heq]
      rfl
    · split at h
      · rename_i x u hx
        obtain ⟨rfl, rfl⟩ := Prod.mk.inj h
        obtain ⟨c, t, heq, hc⟩ := exists_cons_of_numeral? hx
        have happ := numeral?_append_of_ne_nil hx (hr x rfl) s
        rw [heq, List.cons_append] at happ
        rw [readValue_of_numeral (skipGap_append heq s) hc, happ]
      · obtain ⟨rfl, rfl⟩ := Prod.mk.inj h
        cases hd

theorem readItems_append : ∀ {n m : Nat} {cs r : List Char} {ds : List Written}, readItems n cs = (ds, r) →
    areWhole ds = true → n ≤ m → ∀ s, readItems m (cs ++ s) = (ds, r ++ s)
  | 0, _, _, _, _, h, hd, _, _ => by
    obtain ⟨rfl, rfl⟩ := Prod.mk.inj h
    cases hd
  | n + 1, 0, _, _, _, _, _, hm, _ => by cases hm
  | n + 1, m + 1, cs, r, ds, h, hd, hm, s => by
    have hm := Nat.le_of_succ_le_succ hm
    rw [readItems] at h ⊢
    rcases hv : readValue n cs with ⟨d, t⟩
    rw [hv] at h
    simp only at h
    split at h
    · rename_i u hu
      rcases hds : readItems n u with ⟨ds', v⟩
      rw [hds] at h
      obtain ⟨rfl, rfl⟩ := Prod.mk.inj h
      obtain ⟨hd, hds'⟩ := isWhole_cons hd
      rw [readValue_append hv hd (fun _ _ => ne_nil_of_skipGap hu) hm s]
      simp only [skipGap_append hu, readItems_append hds hds' hm s]
    · rename_i u hu
      obtain ⟨rfl, rfl⟩ := Prod.mk.inj h
      obtain ⟨hd, -⟩ := isWhole_cons hd
      rw [readValue_append hv hd (fun _ _ => ne_nil_of_skipGap hu) hm s]
      simp only [skipGap_append hu]
    · obtain ⟨rfl, rfl⟩ := Prod.mk.inj h
      cases (isWhole_cons (isWhole_cons hd).2).1

theorem readMembers_append : ∀ {n m : Nat} {cs r : List Char} {es : List (Written × Written)},
    readMembers n cs = (es, r) → areWholeEntries es = true → n ≤ m → ∀ s, readMembers m (cs ++ s) = (es, r ++ s)
  | 0, _, _, _, _, h, hd, _, _ => by
    obtain ⟨rfl, rfl⟩ := Prod.mk.inj h
    cases hd
  | n + 1, 0, _, _, _, _, _, hm, _ => by cases hm
  | n + 1, m + 1, cs, r, es, h, hd, hm, s => by
    have hm := Nat.le_of_succ_le_succ hm
    rw [readMembers] at h ⊢
    split at h
    · rename_i t ht
      rw [skipGap_append ht]
      simp only
      split at h
      · obtain ⟨rfl, rfl⟩ := Prod.mk.inj h
        cases hd
      · rename_i k u hk
        rw [stringBody?_append hk]
        simp only
        split at h
        · rename_i v hv
          rw [skipGap_append hv]
          simp only
          rcases hw : readValue n v with ⟨d, w⟩
          rw [hw] at h
          simp only at h
          split at h
          · rename_i y hy
            rcases hes : readMembers n y with ⟨es', z⟩
            rw [hes] at h
            obtain ⟨rfl, rfl⟩ := Prod.mk.inj h
            obtain ⟨hd, hes'⟩ := isWhole_entries_cons hd
            rw [readValue_append hw hd (fun _ _ => ne_nil_of_skipGap hy) hm s]
            simp only [skipGap_append hy, readMembers_append hes hes' hm s]
          · rename_i y hy
            obtain ⟨rfl, rfl⟩ := Prod.mk.inj h
            obtain ⟨hd, -⟩ := isWhole_entries_cons hd
            rw [readValue_append hw hd (fun _ _ => ne_nil_of_skipGap hy) hm s]
            simp only [skipGap_append hy]
          · obtain ⟨rfl, rfl⟩ := Prod.mk.inj h
            cases (isWhole_entries_cons (isWhole_entries_cons hd).2).1
        · obtain ⟨rfl, rfl⟩ := Prod.mk.inj h
          cases (isWhole_entries_cons hd).1
    · obtain ⟨rfl, rfl⟩ := Prod.mk.inj h
      cases hd

end

/-- What stands after an opening brace is read as an object. -/
theorem exists_mapping_of_brace (n : Nat) (cs : List Char) :
    ∃ es, (readValue (n + 1) ('\x7b' :: cs)).1 = .mapping es := by
  rw [readValue, skipGap_cons rfl]
  simp only
  split
  · exact ⟨[], rfl⟩
  · exact ⟨_, rfl⟩

/-- **An object whose text is cut short is damaged.** -/
theorem not_whole_of_cut_object {ms : List (String × Json)} (h : cs ++ s = chars (.object ms)) (hs : s ≠ []) :
    (read cs).document.isWhole = false := by
  refine Bool.eq_false_iff.2 fun hwhole => hs ?_
  rcases cs with _ | ⟨c, t⟩
  · cases hwhole
  · obtain ⟨rfl, -⟩ := List.cons.inj h
    obtain ⟨es, hes⟩ := exists_mapping_of_brace (t.length + 1) t
    rcases hread : readValue (t.length + 2) ('\x7b' :: t) with ⟨d, r⟩
    obtain rfl : d = .mapping es := by rw [← hes, hread]
    have hdocument : (read ('\x7b' :: t)).document = .mapping es := hes
    rw [hdocument] at hwhole
    -- Both ends are those of one reading, of the text that is not cut.
    have hlength : t.length + 2 ≤ (chars (.object ms)).length + 1 := by
      rw [← h, List.length_append, List.length_cons]
      omega
    have happended := readValue_append hread hwhole nofun hlength s
    have hwritten := readValue_chars (.object ms) (Nat.le_succ _) delimited_nil
    rw [h] at happended
    rw [List.append_nil] at hwritten
    exact (List.append_eq_nil_iff.1 (Prod.mk.inj (happended.symm.trans hwritten)).2).2

end Values

end ScriptRunner.Json
