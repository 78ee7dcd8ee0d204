import ScriptRunner.Files
import ScriptRunner.Proofs.Document.Outcomes

/-!
# Adding to a file

What has been put at a place of a tree stands there (`find_put`), and making the directories on the way to a place
changes nothing at the place (`find_makeDirectory`). So bytes that are added to a file stand behind its content, and a
file that is not there is made of them, with its directories (`append_eq_ok`).
-/

namespace ScriptRunner.FileTree

open Text (Bytes)

variable {t u : FileTree} {entries : List (String × FileTree)} {names : List String} {name path : String}
variable {bytes content : Bytes}

/-! ## What stands at a place -/

theorem find?_setEntry (name : String) (t : FileTree) (entries : List (String × FileTree)) :
    (setEntry name t entries).find? (fun e => e.1 == name) = some (name, t) := by
  have hnone : (entries.filter fun e => e.1 != name).find? (fun e => e.1 == name) = none :=
    List.find?_eq_none.2 fun e he => by simpa using (List.mem_filter.1 he).2
  simp [setEntry, hnone]

theorem find_setEntry (names : List String) (name : String) (t : FileTree) (entries : List (String × FileTree)) :
    (directory (setEntry name t entries)).find (name :: names) = t.find names := by
  simp [find, find?_setEntry]

/-- What has been put at a place stands there. -/
theorem find_put (u : FileTree) (names : List String) (t : FileTree) : (put u names t).find names = .ok u := by
  induction names generalizing t with
  | nil => rfl
  | cons name names ih =>
    cases t with
    | file content => simpa [put, find] using ih empty
    | directory entries => simpa [put, find_setEntry] using ih _

/-- What stands under a name of a directory. -/
theorem find_cons (name : String) (names : List String) (entries : List (String × FileTree)) :
    (directory entries).find (name :: names) =
      match entries.find? fun e => e.1 == name with
      | some e => e.2.find names
      | none => .error .notFound := by
  cases h : entries.find? fun e => e.1 == name <;> simp only [find, h]

/-- Making the directories on the way to a place does not change what stands there. -/
theorem find_makeDirectory {r : Except FileFault FileTree} (h : t.find (names ++ [name]) = r)
    (hr : r = .error .notFound ∨ ∃ u, r = .ok u) :
    ∃ t', makeDirectory names t = .ok t' ∧ t'.find (names ++ [name]) = r := by
  induction names generalizing t with
  | nil =>
    cases t with
    | file content =>
      subst h
      rcases hr with hr | ⟨u, hr⟩ <;> cases hr
    | directory entries => exact ⟨_, rfl, h⟩
  | cons first names ih =>
    cases t with
    | file content =>
      subst h
      rcases hr with hr | ⟨u, hr⟩ <;> cases hr
    | directory entries =>
      have hinner : (((entries.find? fun e => e.1 == first).map Prod.snd).getD empty).find (names ++ [name]) = r := by
        rw [List.cons_append, find_cons] at h
        cases he : entries.find? (fun e => e.1 == first) with
        | some e => simpa [he] using h
        | none =>
          rw [he] at h
          subst h
          -- The directory that is made under the name has no entries.
          cases names <;> rfl
      obtain ⟨t', hmade, hfind⟩ := ih hinner
      refine ⟨directory (setEntry first t' entries), ?_, ?_⟩
      · rw [makeDirectory, hmade]
        rfl
      · rw [List.cons_append, find_setEntry, hfind]

/-! ## Files -/

/-- The path can be that of a file: it names something and does not end as a directory may. -/
structure NamesFile (path : String) : Prop where
  steps : steps path ≠ []
  ending : path.endsWith "/" = false

theorem NamesFile.isEmpty (h : NamesFile path) : path.isEmpty = false := by
  cases he : path.isEmpty with
  | false => rfl
  | true =>
    obtain rfl := String.isEmpty_iff.1 he
    exact absurd rfl h.steps

theorem NamesFile.lookup_eq (h : NamesFile path) : t.lookup path = t.find (FileTree.steps path) := by
  unfold lookup
  rw [if_neg (by rw [h.isEmpty]; exact Bool.false_ne_true)]
  split
  · rename_i content hfind
    rw [if_neg (by rw [h.ending]; exact Bool.false_ne_true), hfind]
  · rfl

theorem NamesFile.contentAt_eq_ok_iff (h : NamesFile path) :
    t.contentAt path = .ok content ↔ t.find (FileTree.steps path) = .ok (.file content) := by
  unfold contentAt
  rw [h.lookup_eq]
  rcases t.find (FileTree.steps path) with fault | content' | entries <;> simp

theorem NamesFile.contentAt_eq_notFound_iff (h : NamesFile path) :
    t.contentAt path = .error .notFound ↔ t.find (FileTree.steps path) = .error .notFound := by
  unfold contentAt
  rw [h.lookup_eq]
  rcases t.find (FileTree.steps path) with fault | content' | entries <;> simp

/-- **Bytes that are added to a file** stand behind its content, and a file that is not there is made of them. -/
theorem NamesFile.append_eq_ok (h : NamesFile path) (bytes : Bytes)
    (hfile : t.contentAt path = .ok content ∨ t.contentAt path = .error .notFound ∧ content = []) :
    ∃ t', t.append path bytes = .ok t' ∧ t'.contentAt path = .ok (content ++ bytes) := by
  have hplace := List.dropLast_concat_getLast h.steps
  have hslash : ¬ path.endsWith "/" = true := by rw [h.ending]; exact Bool.false_ne_true
  rcases hfile with hcontent | ⟨hnone, rfl⟩
  · have hfind := h.contentAt_eq_ok_iff.1 hcontent
    rw [← hplace] at hfind
    obtain ⟨t', hmade, hfind'⟩ := find_makeDirectory hfind (.inr ⟨_, rfl⟩)
    rw [hplace] at hfind'
    refine ⟨put (.file (content ++ bytes)) (FileTree.steps path) t', ?_, h.contentAt_eq_ok_iff.2 (find_put _ _ _)⟩
    simp only [append, hmade, bind, Except.bind, if_neg hslash, hfind']
  · have hfind := h.contentAt_eq_notFound_iff.1 hnone
    rw [← hplace] at hfind
    obtain ⟨t', hmade, hfind'⟩ := find_makeDirectory hfind (.inl rfl)
    rw [hplace] at hfind'
    refine ⟨put (.file bytes) (FileTree.steps path) t', ?_, h.contentAt_eq_ok_iff.2 (find_put _ _ _)⟩
    simp only [append, hmade, bind, Except.bind, if_neg hslash, hfind']

end ScriptRunner.FileTree
