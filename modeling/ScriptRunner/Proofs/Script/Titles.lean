import Mathlib.Data.List.Induction
import ScriptRunner.Script.Registry
import ScriptRunner.Script.Titles

/-!
# Titles and the order of definitions

A table of titles answers with the translation of the last definition that declares one under the key
(`find?_ofDefinitions_concat`). The key is the title that definitions show and not their name, so two definitions may
meet there. Where those that share a title translate it alike (`Unambiguous`), the order of the definitions does not
matter and each gets its own translation; else neither holds (`titles_are_own_iff`).
-/

namespace ScriptRunner.Script

/-- The translation that the definition declares under a key. -/
def Definition.titleFor? (d : Definition) (lang key : String) : Option String :=
  if d.displayTitle = key then d.titles.find? lang else none

/-- Definitions that share a title translate it alike. -/
def Unambiguous (ds : List Definition) : Prop :=
  ∀ d ∈ ds, ∀ e ∈ ds, d.displayTitle = e.displayTitle → ∀ lang x y,
    d.titles.find? lang = some x → e.titles.find? lang = some y → x = y

variable {d e : Definition} {ds es : List Definition} {lang key text : String}

theorem Definition.titleFor?_displayTitle (d : Definition) (lang : String) :
    d.titleFor? lang d.displayTitle = d.titles.find? lang :=
  if_pos rfl

theorem Definition.titleFor?_eq_some_iff :
    d.titleFor? lang key = some text ↔ d.displayTitle = key ∧ d.titles.find? lang = some text :=
  Option.ite_none_right_eq_some

/-- Two translations under one key are the same. -/
theorem Unambiguous.eq (h : Unambiguous ds) {x y : String} (hd : d ∈ ds) (he : e ∈ ds)
    (hx : d.titleFor? lang key = some x) (hy : e.titleFor? lang key = some y) : x = y := by
  obtain ⟨hdkey, hx⟩ := Definition.titleFor?_eq_some_iff.1 hx
  obtain ⟨hekey, hy⟩ := Definition.titleFor?_eq_some_iff.1 hy
  exact h d hd e he (hdkey.trans hekey.symm) lang x y hx hy

namespace TitleTable

variable {t : TitleTable}

/-! ## What is found -/

theorem find?_insert (t : TitleTable) (lang key text l k : String) :
    (t.insert lang key text).find? l k = if (l, k) = (lang, key) then some text else t.find? l k := by
  unfold find? insert
  rw [List.find?_append]
  by_cases h : (l, k) = (lang, key)
  · obtain ⟨rfl, rfl⟩ := Prod.mk.inj h
    have hnone : (t.entries.filter fun e => e.1 != (l, k)).find? (fun e => e.1 == (l, k)) = none :=
      List.find?_eq_none.2 fun e he => by simpa using (List.mem_filter.1 he).2
    rw [hnone]
    simp
  · have hne : ((lang, key) == (l, k)) = false := beq_eq_false_iff_ne.2 fun he => h he.symm
    have hsame : (t.entries.filter fun e => e.1 != (lang, key)).find? (fun e => e.1 == (l, k)) =
        t.entries.find? fun e => e.1 == (l, k) := by
      rw [List.find?_filter]
      congr 1
      funext e
      by_cases he : e.1 = (l, k)
      · simp [he, h]
      · simp [he]
    rw [hsame, if_neg h, List.find?_cons, hne, List.find?_nil, Option.or_none]

/-- Translations in several languages go in under one title. -/
theorem find?_foldl_insert {ts : List (String × String)} (hts : ts.Pairwise fun a b => a.1 < b.1) (t : TitleTable)
    (title lang key : String) :
    (ts.foldl (fun t e => t.insert e.1 title e.2) t).find? lang key =
      ((if title = key then (ts.find? fun e => e.1 == lang).map Prod.snd else none) <|> t.find? lang key) := by
  induction ts generalizing t with
  | nil => simp
  | cons e ts ih =>
    obtain ⟨hlt, hts⟩ := List.pairwise_cons.1 hts
    rw [List.foldl_cons, ih hts, find?_insert]
    by_cases hkey : title = key
    · subst hkey
      by_cases hlang : lang = e.1
      · subst hlang
        -- The language does not come again, so nothing that follows replaces its text.
        have hnone : ts.find? (fun f => f.1 == e.1) = none := by
          refine List.find?_eq_none.2 fun f hf => ?_
          have hne : f.1 ≠ e.1 := fun he => String.lt_irrefl _ (he ▸ hlt f hf)
          simpa using hne
        simp [hnone]
      · have hne : (e.1 == lang) = false := beq_eq_false_iff_ne.2 fun he => hlang he.symm
        simp [hlang, hne]
    · have hne : ¬ (lang, key) = (e.1, title) := fun h => hkey (Prod.mk.inj h).2.symm
      simp [hkey, hne]

theorem find?_addDefinition (t : TitleTable) (d : Definition) (lang key : String) :
    (t.addDefinition d).find? lang key = (d.titleFor? lang key <|> t.find? lang key) :=
  find?_foldl_insert d.titles.ordered t d.displayTitle lang key

/-- **What a table answers**: the translation of the last definition if it declares one, else what the others give. -/
theorem find?_ofDefinitions_concat (ds : List Definition) (d : Definition) (lang key : String) :
    (ofDefinitions (ds ++ [d])).find? lang key = (d.titleFor? lang key <|> (ofDefinitions ds).find? lang key) := by
  rw [ofDefinitions, List.foldl_append]
  exact find?_addDefinition _ d lang key

theorem exists_of_find? (h : (ofDefinitions ds).find? lang key = some text) :
    ∃ d ∈ ds, d.titleFor? lang key = some text := by
  induction ds using List.reverseRecOn with
  | nil => cases h
  | append_singleton ds d ih =>
    rw [find?_ofDefinitions_concat] at h
    cases hd : d.titleFor? lang key with
    | some x =>
      rw [hd] at h
      exact ⟨d, by simp, hd.trans h⟩
    | none =>
      rw [hd] at h
      obtain ⟨e, he, hx⟩ := ih h
      exact ⟨e, List.mem_append_left _ he, hx⟩

theorem find?_ne_none (hd : d ∈ ds) (h : d.titleFor? lang key = some text) :
    (ofDefinitions ds).find? lang key ≠ none := by
  induction ds using List.reverseRecOn with
  | nil => cases hd
  | append_singleton ds e ih =>
    rw [find?_ofDefinitions_concat]
    rcases List.mem_append.1 hd with hd | hd
    · cases he : e.titleFor? lang key with
      | some x => simp
      | none => simpa using ih hd
    · obtain rfl := List.mem_singleton.1 hd
      simp [h]

/-! ## The order of the definitions -/

/-- Any definition may be the last one. -/
theorem exists_perm_concat {α : Type} {xs : List α} {x : α} (h : x ∈ xs) : ∃ ys, (ys ++ [x]).Perm xs := by
  obtain ⟨ys, zs, rfl⟩ := List.append_of_mem h
  exact ⟨ys ++ zs, by rw [List.append_assoc]; exact List.perm_append_comm.append_left ys⟩

/-- Definitions that share a title and translate it alike get along in any order. -/
theorem find?_congr_of_unambiguous (h : Unambiguous ds) (hsame : ∀ d, d ∈ es ↔ d ∈ ds) (lang key : String) :
    (ofDefinitions es).find? lang key = (ofDefinitions ds).find? lang key := by
  cases hx : (ofDefinitions es).find? lang key with
  | none =>
    cases hy : (ofDefinitions ds).find? lang key with
    | none => rfl
    | some y =>
      obtain ⟨e, he, hey⟩ := exists_of_find? hy
      exact absurd hx (find?_ne_none ((hsame e).2 he) hey)
  | some x =>
    obtain ⟨d, hd, hdx⟩ := exists_of_find? hx
    cases hy : (ofDefinitions ds).find? lang key with
    | none => exact absurd hy (find?_ne_none ((hsame d).1 hd) hdx)
    | some y =>
      obtain ⟨e, he, hey⟩ := exists_of_find? hy
      rw [h.eq ((hsame d).1 hd) he hdx hey]

/-- A title that is found in the language is shown whatever the default language is. -/
theorem localize_of_find? (h : t.find? lang key = some text) (defaultLang : String) :
    t.localize defaultLang lang key = text := by
  simp [localize, h]

/-- The definitions of the table show their own translations exactly if they are unambiguous. -/
theorem localize_own_iff : (∀ d ∈ ds, ∀ lang text, d.titles.find? lang = some text →
    ∀ defaultLang, (ofDefinitions ds).localize defaultLang lang d.displayTitle = text) ↔ Unambiguous ds := by
  constructor
  · intro hown d hd e he hkey lang x y hx hy
    rw [← hown d hd lang x hx "", hkey]
    exact hown e he lang y hy ""
  · intro h d hd lang text htext defaultLang
    have hdecl : d.titleFor? lang d.displayTitle = some text := (d.titleFor?_displayTitle lang).trans htext
    cases hx : (ofDefinitions ds).find? lang d.displayTitle with
    | none => exact absurd hx (find?_ne_none hd hdecl)
    | some x =>
      obtain ⟨e, he, hex⟩ := exists_of_find? hx
      rw [localize_of_find? hx, h.eq he hd hex hdecl]

/-- **When titles do not depend on the order of the definitions.** Of a registry whose definitions translate a title
that they share alike, all orders of the definitions give tables with the same answers, and each of these tables gives
every definition its own translation. Of any other registry two orders give different answers, and no order gives all
definitions their own translations. -/
theorem titles_are_own_iff (r : Registry) :
    ((∀ ds es, ds.Perm r.definitions.values → es.Perm r.definitions.values →
        ∀ lang key, (ofDefinitions ds).find? lang key = (ofDefinitions es).find? lang key) ↔
      Unambiguous r.definitions.values) ∧
    ∀ ds, ds.Perm r.definitions.values →
      ((∀ d ∈ r.definitions.values, ∀ lang text, d.titles.find? lang = some text →
          ∀ defaultLang, (ofDefinitions ds).localize defaultLang lang d.displayTitle = text) ↔
        Unambiguous r.definitions.values) := by
  refine ⟨⟨fun horder => ?_, fun h ds es hds hes lang key => ?_⟩, fun ds hds => ?_⟩
  · intro d hd e he hkey lang x y hx hy
    obtain ⟨ds, hds⟩ := exists_perm_concat hd
    obtain ⟨es, hes⟩ := exists_perm_concat he
    -- The definition at the end of each order has the last word.
    have hlast := horder _ _ hds hes lang d.displayTitle
    rw [find?_ofDefinitions_concat, find?_ofDefinitions_concat, d.titleFor?_displayTitle, hx, hkey,
      e.titleFor?_displayTitle, hy] at hlast
    exact Option.some.inj hlast
  · rw [find?_congr_of_unambiguous h (fun d => hds.mem_iff), find?_congr_of_unambiguous h fun d => hes.mem_iff]
  · have hsame : Unambiguous ds ↔ Unambiguous r.definitions.values := by
      unfold Unambiguous
      simp only [hds.mem_iff]
    rw [← hsame, ← localize_own_iff]
    simp only [hds.mem_iff]

/-- A definition that is shown as saving and has a name of its own and a French title. -/
def saving (name french : String) : Definition :=
  { Definition.rawSource name "Save" with titles := .ofList [("fr", french)] }

def savings : Registry := .ofList [saving "backup" "Sauvegarder", saving "store" "Enregistrer"]

/-- Two scripts with one title: which of their translations both show depends on the order. -/
theorem shared_title_depends_on_order :
    (¬ ∀ (r : Registry) (ds es : List Definition), ds.Perm r.definitions.values → es.Perm r.definitions.values →
        ∀ lang key, (ofDefinitions ds).find? lang key = (ofDefinitions es).find? lang key) ∧
      ¬ ∀ (r : Registry) (ds : List Definition), ds.Perm r.definitions.values → ∀ d ∈ r.definitions.values,
        ∀ lang text, d.titles.find? lang = some text →
          ∀ defaultLang, (ofDefinitions ds).localize defaultLang lang d.displayTitle = text := by
  have hvalues : savings.definitions.values = [saving "backup" "Sauvegarder", saving "store" "Enregistrer"] := rfl
  constructor
  · intro horder
    have hswap := horder savings savings.definitions.values
      [saving "store" "Enregistrer", saving "backup" "Sauvegarder"] .rfl (hvalues ▸ .swap ..) "fr" "Save"
    revert hswap
    decide
  · intro hown
    have hfirst := hown savings _ .rfl (saving "backup" "Sauvegarder") (hvalues ▸ List.mem_cons_self) "fr"
      "Sauvegarder" rfl "en"
    revert hfirst
    decide

end TitleTable

end ScriptRunner.Script
