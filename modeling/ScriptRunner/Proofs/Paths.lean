import Mathlib.Data.List.Basic
import ScriptRunner.Proofs.Files

/-!
# Names in a directory

A name that is added to the path of a directory stands for the entry of that name in it, however the path of the
directory is written (`FileTree.lookup_joinPath`). A file name has an extension exactly if the extension stands behind a
dot that is not its first character (`extension?_eq_some_iff`).
-/

namespace ScriptRunner

/-- What an entry of a directory can be called. -/
structure IsEntryName (name : String) : Prop where
  ne_empty : name ≠ ""
  noSlash : '/' ∉ name.toList
  ne_dot : name ≠ "."
  ne_dots : name ≠ ".."

variable {dir name : String}

theorem IsEntryName.toList_ne_nil (h : IsEntryName name) : name.toList ≠ [] :=
  fun he => h.ne_empty (String.toList_eq_nil_iff.1 he)

theorem endsWith_slash_iff {path : String} : path.endsWith "/" = true ↔ ∃ above, path.toList = above ++ ['/'] := by
  rw [← String.endsWith_toSlice, String.Slice.endsWith_string_iff, String.copy_toSlice]
  exact exists_congr fun above => eq_comm

/-- A path with a name added to it is the name, or ends with it behind a slash. -/
theorem joinPath_cases (h : IsEntryName name) (dir : String) :
    (dir = "" ∧ joinPath dir name = name) ∨
      ∃ above, (dir.toList = above ∨ dir.toList = above ++ ['/']) ∧ dir ≠ "" ∧
        (joinPath dir name).toList = above ++ '/' :: name.toList := by
  have hrelative : ¬ name.startsWith "/" = true := by
    rw [String.startsWith_string_iff]
    exact fun hp => h.noSlash (hp.subset (List.mem_singleton_self '/'))
  unfold joinPath
  rw [if_neg hrelative]
  by_cases hempty : dir = ""
  · left
    simp [hempty]
  · right
    by_cases hslash : dir.endsWith "/" = true
    · obtain ⟨above, habove⟩ := endsWith_slash_iff.1 hslash
      refine ⟨above, .inr habove, hempty, ?_⟩
      rw [if_pos (by rw [hslash, Bool.or_true]), String.toList_append, habove]
      simp
    · refine ⟨dir.toList, .inl rfl, hempty, ?_⟩
      simp [hempty, Bool.eq_false_iff.2 hslash]

/-- The path of a name in a directory is never a bare name. -/
theorem slash_mem_joinPath (h : IsEntryName name) (hdir : dir ≠ "") : '/' ∈ (joinPath dir name).toList := by
  rcases joinPath_cases h dir with ⟨hempty, -⟩ | ⟨above, -, -, he⟩
  · exact absurd hempty hdir
  · rw [he]
    exact List.mem_append_right above List.mem_cons_self

/-- The last character of the path is that of the name. -/
theorem getLast?_joinPath (h : IsEntryName name) (dir : String) :
    (joinPath dir name).toList.getLast? = name.toList.getLast? := by
  rcases joinPath_cases h dir with ⟨-, he⟩ | ⟨above, -, -, he⟩
  · rw [he]
  · rw [he, List.getLast?_append, List.getLast?_cons]
    cases hlast : name.toList.getLast? with
    | none => exact absurd (List.getLast?_eq_none_iff.1 hlast) h.toList_ne_nil
    | some c => simp

theorem takeWhile_ne_append {cs : List Char} (h : '.' ∉ cs) (r : List Char) :
    (cs ++ '.' :: r).takeWhile (· ≠ '.') = cs := by
  have hcs : ∀ c ∈ cs, decide (c ≠ '.') = true := fun c hc => decide_eq_true fun he => h (he ▸ hc)
  rw [List.takeWhile_append_of_pos hcs, List.takeWhile_cons_of_neg (by simp), List.append_nil]

/-- **A file name has an extension** exactly if the extension stands behind a dot that is not the first character. -/
theorem extension?_eq_some_iff {ext : String} :
    extension? name = some ext ↔
      '.' ∉ ext.toList ∧ name ≠ ".." ∧ ∃ stem, stem ≠ "" ∧ name = stem ++ "." ++ ext := by
  unfold extension?
  dsimp only
  constructor
  · intro h
    have hno : '.' ∉ name.toList.reverse.takeWhile (· ≠ '.') := fun hmem => by
      simpa using List.all_eq_true.1 List.all_takeWhile _ hmem
    obtain ⟨rest, hback⟩ := List.takeWhile_prefix (· ≠ '.') (l := name.toList.reverse)
    generalize name.toList.reverse.takeWhile (· ≠ '.') = back at h hno hback
    rw [← hback, List.drop_left] at h
    split at h
    · rename_i c stem
      split at h
      · cases h
      · rename_i hdots
        cases h
        refine ⟨by simpa using hno, hdots, String.ofList (c :: stem).reverse, by simp, String.toList_injective ?_⟩
        simpa using List.reverse_eq_iff.1 hback.symm
    · cases h
  · rintro ⟨hext, hdots, stem, hstem, rfl⟩
    have hback : (stem ++ "." ++ ext).toList.reverse = ext.toList.reverse ++ '.' :: stem.toList.reverse := by simp
    obtain ⟨c, r, hr⟩ := List.exists_cons_of_ne_nil (l := stem.toList.reverse) (by simpa using hstem)
    rw [hback, takeWhile_ne_append (by simpa using hext), List.drop_left, hr]
    simp [hdots]

theorem extension?_eq_some_iff_of_ne_empty {ext : String} (hdot : '.' ∉ ext.toList) (hne : ext ≠ "") :
    extension? name = some ext ↔ ∃ stem, stem ≠ "" ∧ name = stem ++ "." ++ ext := by
  rw [extension?_eq_some_iff]
  refine ⟨fun h => h.2.2, fun h => ⟨hdot, ?_, h⟩⟩
  rintro rfl
  obtain ⟨stem, -, he⟩ := h
  have hlast := congrArg (fun s : String => s.toList.getLast?) he
  rw [String.toList_append, List.getLast?_append_of_ne_nil _ (by simpa using hne)] at hlast
  exact hdot (List.mem_of_getLast? hlast.symm)

namespace FileTree

variable {t u : FileTree} {entries : List (String × FileTree)}

/-! ## The steps of a path -/

/-- One more name on the way to a path. -/
def addStep (names : List String) (s : List Char) : List String :=
  if s = [] ∨ s = ['.'] then names else if s = ['.', '.'] then names.dropLast else names ++ [String.ofList s]

theorem steps_eq (path : String) : steps path = (path.toList.splitOn '/').foldl addStep [] := rfl

theorem addStep_nil (names : List String) : addStep names [] = names := if_pos (.inl rfl)

theorem addStep_name (h : IsEntryName name) (names : List String) : addStep names name.toList = names ++ [name] := by
  have hdot : name.toList ≠ ['.'] := fun he => h.ne_dot (String.toList_injective he)
  have hdots : name.toList ≠ ['.', '.'] := fun he => h.ne_dots (String.toList_injective he)
  rw [addStep, if_neg (not_or.2 ⟨h.toList_ne_nil, hdot⟩), if_neg hdots, String.ofList_toList]

theorem steps_joinPath (h : IsEntryName name) (dir : String) : steps (joinPath dir name) = steps dir ++ [name] := by
  have hname : name.toList.splitOn '/' = [name.toList] := List.splitOn_eq_singleton h.noSlash
  rcases joinPath_cases h dir with ⟨rfl, he⟩ | ⟨above, hdir, -, he⟩
  · rw [he, steps_eq, hname]
    exact addStep_name h []
  · have hsteps : steps dir = (above.splitOn '/').foldl addStep [] := by
      rcases hdir with hdir | hdir
      · rw [steps_eq, hdir]
      · -- Nothing stands behind the slash at the end.
        rw [steps_eq, hdir, List.splitOn_append_cons_self, List.foldl_append]
        exact addStep_nil _
    rw [steps_eq, he, List.splitOn_append_cons_self, hname, List.foldl_append, ← hsteps]
    exact addStep_name h _

/-! ## What stands there -/

theorem find_append (names rest : List String) (t : FileTree) :
    t.find (names ++ rest) = t.find names >>= find rest := by
  induction names generalizing t with
  | nil => rfl
  | cons name names ih =>
    cases t with
    | file content => rfl
    | directory entries =>
      rw [List.cons_append, find_cons, find_cons]
      cases entries.find? fun e => e.1 == name with
      | none => rfl
      | some e => exact ih e.2

theorem namesFile_joinPath (h : IsEntryName name) (dir : String) : NamesFile (joinPath dir name) where
  steps := by simp [steps_joinPath h]
  ending := by
    refine Bool.eq_false_iff.2 fun hslash => ?_
    obtain ⟨above, he⟩ := endsWith_slash_iff.1 hslash
    have hlast : name.toList.getLast? = some '/' := by
      rw [← getLast?_joinPath h dir, he, List.getLast?_concat]
    exact h.noSlash (List.mem_of_getLast? hlast)

theorem find_of_lookup_directory {path : String} (h : t.lookup path = .ok (.directory entries)) :
    t.find (FileTree.steps path) = .ok (.directory entries) := by
  unfold lookup at h
  split at h
  · cases h
  · split at h
    · split at h <;> cases h
    · exact h

/-- **The path of a name in a directory** leads to what the directory has under the name. -/
theorem lookup_joinPath (h : IsEntryName name) (hdir : t.lookup dir = .ok (.directory entries)) :
    t.lookup (joinPath dir name) = (directory entries).find [name] := by
  rw [(namesFile_joinPath h dir).lookup_eq, steps_joinPath h, find_append, find_of_lookup_directory hdir]
  rfl

end FileTree

end ScriptRunner
