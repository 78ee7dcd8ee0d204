import Mathlib.Data.List.Nodup
import ScriptRunner.Dict

/-!
# Entries of dictionaries

A dictionary finds under a key the value of the entry with that key, which is the only one
(`Dict.find?_eq_some_iff`). An insertion changes what is found under its own key and under no other
(`Dict.find?_insert`). Entries in the order of their keys are those of the dictionary that is made of them
(`Dict.entries_ofList`).
-/

namespace ScriptRunner

namespace Dict

variable {α : Type} {d : Dict α} {key : String} {value : α} {es : List (String × α)} {e : String × α}

/-! ## Look-ups -/

theorem nodup_keys (d : Dict α) : d.keys.Nodup :=
  List.pairwise_map.2 (d.ordered.imp fun h => String.ne_of_lt h)

theorem find?_eq_some_iff : d.find? key = some value ↔ (key, value) ∈ d.entries := by
  rw [find?, Option.map_eq_some_iff]
  constructor
  · rintro ⟨⟨k, v⟩, hfind, rfl⟩
    obtain rfl : k = key := by simpa using List.find?_some hfind
    exact List.mem_of_find?_eq_some hfind
  · intro hmem
    cases hfind : d.entries.find? fun e => e.1 == key with
    | none => exact absurd (List.find?_eq_none.1 hfind _ hmem) (by simp)
    | some e =>
      -- Two entries with one key stand at one place.
      have hkey : e.1 = key := by simpa using List.find?_some hfind
      have he : e = (key, value) := List.inj_on_of_nodup_map d.nodup_keys (List.mem_of_find?_eq_some hfind) hmem hkey
      exact ⟨e, rfl, by rw [he]⟩

theorem mem_keys_iff : key ∈ d.keys ↔ ∃ value, d.find? key = some value := by
  simp [keys, find?_eq_some_iff]

theorem find?_insertEntry (key : String) (value : α) (es : List (String × α)) (k : String) :
    ((insertEntry key value es).find? fun e => e.1 == k) =
      if k = key then some (key, value) else es.find? fun e => e.1 == k := by
  -- In each case the search stops at the new entry or passes it, and goes on as before.
  fun_induction insertEntry key value es <;> grind

theorem find?_insert (d : Dict α) (key : String) (value : α) (k : String) :
    (d.insert key value).find? k = if k = key then some value else d.find? k := by
  rw [find?, insert, find?_insertEntry]
  split <;> rfl

/-! ## Entries -/

theorem mem_entries_insert {d : Dict α} (h : e ∈ (d.insert key value).entries) : e = (key, value) ∨ e ∈ d.entries :=
  mem_insertEntry h

theorem mem_of_mem_ofList (h : e ∈ (ofList es).entries) : e ∈ es := by
  have hfold : ∀ (es : List (String × α)) (d : Dict α),
      e ∈ (es.foldl (fun d e => d.insert e.1 e.2) d).entries → e ∈ d.entries ∨ e ∈ es := by
    intro es
    induction es with
    | nil => exact fun d h => .inl h
    | cons f fs ih =>
      intro d h
      rcases ih _ h with h | h
      · rcases mem_entries_insert h with rfl | h
        · exact .inr List.mem_cons_self
        · exact .inl h
      · exact .inr (List.mem_cons_of_mem f h)
  exact (hfold es empty h).resolve_left nofun

/-- An entry behind all others is put at the end. -/
theorem insertEntry_last (h : ∀ e ∈ es, e.1 < key) : insertEntry key value es = es ++ [(key, value)] := by
  induction es with
  | nil => rfl
  | cons e es ih =>
    obtain ⟨k, v⟩ := e
    have hlt := h (k, v) List.mem_cons_self
    have hne : key ≠ k := fun he => String.lt_irrefl key (by rw [← he] at hlt; exact hlt)
    rw [insertEntry, if_neg (String.lt_asymm hlt), if_neg hne, ih fun e he => h e (List.mem_cons_of_mem _ he)]
    rfl

/-- Entries in order are the entries of their dictionary. -/
theorem entries_ofList (h : es.Pairwise fun a b => a.1 < b.1) : (ofList es).entries = es := by
  have hfold : ∀ (es : List (String × α)) (d : Dict α), (d.entries ++ es).Pairwise (fun a b => a.1 < b.1) →
      (es.foldl (fun d e => d.insert e.1 e.2) d).entries = d.entries ++ es := by
    intro es
    induction es with
    | nil => exact fun d _ => (List.append_nil _).symm
    | cons e es ih =>
      intro d h
      have hlast : (d.insert e.1 e.2).entries = d.entries ++ [e] :=
        insertEntry_last fun f hf => (List.pairwise_append.1 h).2.2 f hf e List.mem_cons_self
      have hsplit : d.entries ++ e :: es = (d.insert e.1 e.2).entries ++ es := by rw [hlast, List.append_assoc]; rfl
      rw [hsplit] at h ⊢
      exact ih _ h
  exact hfold es empty h

theorem ofList_entries (d : Dict α) : ofList d.entries = d := by
  obtain ⟨es, hes⟩ := d
  have he := entries_ofList hes
  cases h : ofList es
  rw [h] at he
  cases he
  rfl

end Dict

end ScriptRunner
