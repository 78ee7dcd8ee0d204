/-!
# Dictionaries with text keys

A dictionary keeps its entries in the order of their keys and each key once, so two dictionaries with the same look-ups
are equal. Inserting replaces.
-/

namespace ScriptRunner

/-- Entries in strictly ascending order of their keys. -/
structure Dict (α : Type) where
  entries : List (String × α)
  ordered : entries.Pairwise fun a b => a.1 < b.1

namespace Dict

variable {α : Type}

def empty : Dict α := ⟨[], .nil⟩

instance : EmptyCollection (Dict α) := ⟨empty⟩
instance : Inhabited (Dict α) := ⟨empty⟩

instance [DecidableEq α] : DecidableEq (Dict α) := fun a b =>
  decidable_of_iff (a.entries = b.entries) ⟨fun h => by cases a; cases b; simp_all, fun h => h ▸ rfl⟩

/-- Puts an entry where its key belongs, in place of one with the same key. -/
def insertEntry (key : String) (value : α) : List (String × α) → List (String × α)
  | [] => [(key, value)]
  | (k, v) :: r =>
    if key < k then (key, value) :: (k, v) :: r
    else if key = k then (key, value) :: r
    else (k, v) :: insertEntry key value r

theorem mem_insertEntry {key : String} {value : α} {es : List (String × α)} {e : String × α}
    (h : e ∈ insertEntry key value es) : e = (key, value) ∨ e ∈ es := by
  fun_induction insertEntry key value es with
  | case1 => simp_all
  | case2 => simpa using h
  | case3 => rcases List.mem_cons.1 h with h | h <;> simp [h]
  | case4 k v r _ _ ih =>
    rcases List.mem_cons.1 h with rfl | h
    · simp
    · rcases ih h with rfl | h <;> simp_all

theorem ordered_insertEntry {key : String} {value : α} {es : List (String × α)}
    (h : es.Pairwise fun a b => a.1 < b.1) : (insertEntry key value es).Pairwise fun a b => a.1 < b.1 := by
  fun_induction insertEntry key value es with
  | case1 => simp
  | case2 k v r hlt =>
    refine List.pairwise_cons.2 ⟨fun e he => ?_, h⟩
    rcases List.mem_cons.1 he with rfl | he
    · exact hlt
    · exact String.lt_trans hlt (List.rel_of_pairwise_cons h he)
  | case3 v r =>
    exact List.pairwise_cons.2 ⟨fun e he => List.rel_of_pairwise_cons h he, h.of_cons⟩
  | case4 k v r hnlt hne ih =>
    refine List.pairwise_cons.2 ⟨fun e he => ?_, ih h.of_cons⟩
    rcases mem_insertEntry he with rfl | he
    · exact String.not_le.1 fun hle => hne (String.le_antisymm (String.not_lt.1 hnlt) hle).symm
    · exact List.rel_of_pairwise_cons h he

def insert (d : Dict α) (key : String) (value : α) : Dict α :=
  ⟨insertEntry key value d.entries, ordered_insertEntry d.ordered⟩

/-- The dictionary of a list of entries; of two with one key the later one counts. -/
def ofList (es : List (String × α)) : Dict α :=
  es.foldl (fun d e => d.insert e.1 e.2) empty

def find? (d : Dict α) (key : String) : Option α :=
  (d.entries.find? fun e => e.1 == key).map Prod.snd

def keys (d : Dict α) : List String :=
  d.entries.map Prod.fst

def values (d : Dict α) : List α :=
  d.entries.map Prod.snd

def size (d : Dict α) : Nat :=
  d.entries.length

end Dict

end ScriptRunner
