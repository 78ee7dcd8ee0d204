import Mathlib.Data.List.Perm.Basic
import ScriptRunner.Proofs.Dict
import ScriptRunner.Proofs.Document.Outcomes
import ScriptRunner.Proofs.Paths
import ScriptRunner.Proofs.Text.ByteOrder
import ScriptRunner.Script.Registry

/-!
# Definitions from a directory

A directory holds each name once, but the system may list its names in any order. The files that hold definitions are
read in the order of the bytes of their names, so the registry does not depend on the listing. Either every such file
gives a definition, and the registry holds of each name the definition in the last file that defines it and the built-in
definitions of other names, or there is no registry and the error is that of the first file that gives none
(`directory_determines_registry`).
-/

namespace ScriptRunner.Script

namespace Registry

/-! ## What a directory holds -/

/-- A regular file in a directory that is taken for one with a definition, by its name. -/
structure HoldsFile (content : Dict DirEntry) (file : String) (bytes : Except FileFault Text.Bytes) : Prop where
  regular : content.find? file = some (.file bytes)
  named : ∃ stem, stem ≠ "" ∧ (file = stem ++ ".yaml" ∨ file = stem ++ ".yml")

/-- A file with the definition in it. -/
def Gives (content : Dict DirEntry) (file : String) (d : Definition) : Prop :=
  ∃ bytes text, HoldsFile content file bytes ∧ readText bytes = .ok text ∧
    Yaml.decodeText Definition.decoder text = .ok d ∧ Text.isBlankText d.name = false

/-- A file with what keeps it from giving a definition. -/
inductive Fails (dir : String) (content : Dict DirEntry) (file : String) : RegistryError → Prop where
  | unreadable {bytes : Except FileFault Text.Bytes} {fault : FileFault} (held : HoldsFile content file bytes)
      (unread : readText bytes = .error fault) : Fails dir content file (.cannotRead (joinPath dir file) fault)
  | undecodable {bytes : Except FileFault Text.Bytes} {text : String} {failure : Failure}
      (held : HoldsFile content file bytes) (read : readText bytes = .ok text)
      (undecoded : Yaml.decodeText Definition.decoder text = .error failure) :
      Fails dir content file (.invalidDefinition (joinPath dir file) failure)
  | nameless {bytes : Except FileFault Text.Bytes} {text : String} {d : Definition}
      (held : HoldsFile content file bytes) (read : readText bytes = .ok text)
      (decoded : Yaml.decodeText Definition.decoder text = .ok d) (blank : Text.isBlankText d.name = true) :
      Fails dir content file (.noName (joinPath dir file))

/-- The definition of a name in the last file that defines it. -/
def GivesLast (content : Dict DirEntry) (name : String) (d : Definition) : Prop :=
  ∃ file, Gives content file d ∧ d.name = name ∧
    ∀ file' d', Gives content file' d' → d'.name = name → Text.encodeUtf8 file' ≤ Text.encodeUtf8 file

/-- The first file that gives no definition. -/
def FailsFirst (dir : String) (content : Dict DirEntry) (file : String) (e : RegistryError) : Prop :=
  Fails dir content file e ∧
    ∀ file' e', Fails dir content file' e' → Text.encodeUtf8 file ≤ Text.encodeUtf8 file'

/-- The registry of a directory all of whose files give definitions. -/
structure IsFilledFrom (content : Dict DirEntry) (r : Registry) : Prop where
  names (name : String) :
    name ∈ r.names ↔ (∃ d ∈ builtins, d.name = name) ∨ ∃ file d, Gives content file d ∧ d.name = name
  definitions (name : String) (d : Definition) :
    r.find? name = some d ↔
      GivesLast content name d ∨
        d ∈ builtins ∧ d.name = name ∧ ∀ file d', Gives content file d' → d'.name ≠ name

/-! ## Adding definitions -/

section Adding

variable {r : Registry} {name : String} {d : Definition}

theorem find?_insert (r : Registry) (d : Definition) (name : String) :
    (r.insert d).find? name = if name = d.name then some d else r.find? name :=
  Dict.find?_insert r.definitions d.name d name

theorem mem_names_iff : name ∈ r.names ↔ ∃ d, r.find? name = some d := Dict.mem_keys_iff

theorem mem_names_insert : name ∈ (r.insert d).names ↔ name ∈ r.names ∨ d.name = name := by
  simp only [mem_names_iff, find?_insert]
  by_cases h : name = d.name <;> simp [h, eq_comm (a := d.name)]

theorem find?_withBuiltins : withBuiltins.find? name = some d ↔ d ∈ builtins ∧ d.name = name := by
  have hfind : withBuiltins.find? name =
      if name = "source" then some (Definition.rawSource "source" "Source code") else none :=
    find?_insert empty (Definition.rawSource "source" "Source code") name
  rw [hfind, builtins, List.mem_singleton]
  constructor
  · intro h
    obtain ⟨rfl, hd⟩ := Option.ite_none_right_eq_some.1 h
    obtain rfl := Option.some.inj hd
    exact ⟨rfl, rfl⟩
  · rintro ⟨rfl, rfl⟩
    rfl

theorem mem_names_withBuiltins : name ∈ withBuiltins.names ↔ ∃ d ∈ builtins, d.name = name := by
  simp only [mem_names_iff, find?_withBuiltins]

/-- The registry with the definitions that were read from files. -/
def addAll (r : Registry) (read : List (String × Definition)) : Registry := read.foldl (fun r e => r.insert e.2) r

theorem addAll_cons (r : Registry) (e : String × Definition) (read : List (String × Definition)) :
    r.addAll (e :: read) = (r.insert e.2).addAll read := rfl

theorem mem_names_addAll {read : List (String × Definition)} :
    name ∈ (r.addAll read).names ↔ name ∈ r.names ∨ ∃ e ∈ read, e.2.name = name := by
  induction read generalizing r with
  | nil => simp [addAll]
  | cons e read ih =>
    rw [addAll_cons, ih, mem_names_insert, List.exists_mem_cons_iff, or_assoc]

/-- **Of the definitions of a name the last one stays**, and without any the one from before. -/
theorem find?_addAll {read : List (String × Definition)} (h : read.Pairwise fun a b => a.1 < b.1) :
    (r.addAll read).find? name = some d ↔
      (∃ file, (file, d) ∈ read ∧ d.name = name ∧ ∀ e ∈ read, e.2.name = name → e.1 ≤ file) ∨
        r.find? name = some d ∧ ∀ e ∈ read, e.2.name ≠ name := by
  -- From the front: what the first file defines is in the registry for the others, and stays if none of them defines it.
  induction read generalizing r with
  | nil => simp [addAll]
  | cons e read ih =>
    have hlater : ∀ f ∈ read, e.1 < f.1 := fun f hf => List.rel_of_pairwise_cons h hf
    rw [addAll_cons, ih h.of_cons, find?_insert]
    constructor
    · rintro (⟨file, hmem, hname, hlast⟩ | ⟨hfind, hnone⟩)
      · have hfirst : e.1 ≤ file := String.lt_asymm (hlater _ hmem)
        exact .inl ⟨file, List.mem_cons_of_mem e hmem, hname, List.forall_mem_cons.2 ⟨fun _ => hfirst, hlast⟩⟩
      · split at hfind
        · rename_i hname
          obtain rfl := Option.some.inj hfind
          have hlast : ∀ f ∈ read, f.2.name = name → f.1 ≤ e.1 := fun f hf hn => absurd hn (hnone f hf)
          exact .inl ⟨e.1, List.mem_cons_self, hname.symm,
            List.forall_mem_cons.2 ⟨fun _ => String.le_refl e.1, hlast⟩⟩
        · rename_i hname
          exact .inr ⟨hfind, List.forall_mem_cons.2 ⟨Ne.symm hname, hnone⟩⟩
    · rintro (⟨file, hmem, hname, hlast⟩ | ⟨hfind, hnone⟩)
      · rcases List.mem_cons.1 hmem with rfl | hmem
        · have hnone : ∀ f ∈ read, f.2.name ≠ name := fun f hf hn =>
            hlast f (List.mem_cons_of_mem _ hf) hn (hlater f hf)
          exact .inr ⟨if_pos hname.symm, hnone⟩
        · exact .inl ⟨file, hmem, hname, fun f hf => hlast f (List.mem_cons_of_mem e hf)⟩
      · obtain ⟨hne, hnone⟩ := List.forall_mem_cons.1 hnone
        exact .inr ⟨by rw [if_neg (Ne.symm hne), hfind], hnone⟩

end Adding

/-! ## Reading files -/

section Reading

variable {dir file path : String} {content : Dict DirEntry} {listing : Listing} {bytes : Except FileFault Text.Bytes}
  {d : Definition} {e : RegistryError} {r : Registry} {files : List (String × Except FileFault Text.Bytes)}

theorem readDefinition_eq_ok_iff : readDefinition path bytes = .ok d ↔
    ∃ text, readText bytes = .ok text ∧ Yaml.decodeText Definition.decoder text = .ok d ∧
      Text.isBlankText d.name = false := by
  unfold readDefinition
  cases readText bytes with
  | error fault => exact iff_of_false nofun nofun
  | ok text =>
    cases hdecode : Yaml.decodeText Definition.decoder text with
    | error failure => simp [hdecode]
    | ok d' => cases hblank : Text.isBlankText d'.name <;> grind

theorem readDefinition_eq_error_iff : readDefinition path bytes = .error e ↔
    (∃ fault, readText bytes = .error fault ∧ .cannotRead path fault = e) ∨
      ∃ text, readText bytes = .ok text ∧
        ((∃ failure, Yaml.decodeText Definition.decoder text = .error failure ∧ .invalidDefinition path failure = e) ∨
          ∃ d, Yaml.decodeText Definition.decoder text = .ok d ∧
            Text.isBlankText d.name = true ∧ .noName path = e) := by
  unfold readDefinition
  cases readText bytes with
  | error fault => simp
  | ok text =>
    cases hdecode : Yaml.decodeText Definition.decoder text with
    | error failure => simp [hdecode]
    | ok d' => cases hblank : Text.isBlankText d'.name <;> simp [hdecode, hblank]

theorem gives_iff (dir : String) : Gives content file d ↔
    ∃ bytes, HoldsFile content file bytes ∧ readDefinition (joinPath dir file) bytes = .ok d := by
  simp only [readDefinition_eq_ok_iff, Gives, exists_and_left]

theorem fails_iff : Fails dir content file e ↔
    ∃ bytes, HoldsFile content file bytes ∧ readDefinition (joinPath dir file) bytes = .error e := by
  simp only [readDefinition_eq_error_iff]
  constructor
  · rintro (⟨held, hread⟩ | ⟨held, hread, hdecode⟩ | ⟨held, hread, hdecode, hblank⟩)
    · exact ⟨_, held, .inl ⟨_, hread, rfl⟩⟩
    · exact ⟨_, held, .inr ⟨_, hread, .inl ⟨_, hdecode, rfl⟩⟩⟩
    · exact ⟨_, held, .inr ⟨_, hread, .inr ⟨_, hdecode, hblank, rfl⟩⟩⟩
  · rintro ⟨bytes, held, ⟨fault, hread, rfl⟩ | ⟨text, hread, ⟨failure, hdecode, rfl⟩ | ⟨d, hdecode, hblank, rfl⟩⟩⟩
    · exact .unreadable held hread
    · exact .undecodable held hread hdecode
    · exact .nameless held hread hdecode hblank

/-- What is in a file of a directory. -/
def readFile (dir : String) (f : String × Except FileFault Text.Bytes) : Except RegistryError Definition :=
  readDefinition (joinPath dir f.1) f.2

/-- The registry with the definitions of files, up to the first one that gives none. -/
def addFiles (dir : String) (r : Registry) (files : List (String × Except FileFault Text.Bytes)) :
    Except RegistryError Registry :=
  files.foldlM (fun r f => (readFile dir f).map r.insert) r

theorem load_eq (dir : String) (listing : Listing) :
    load dir (.ok listing) = addFiles dir withBuiltins (definitionFiles listing) := rfl

/-- The definitions of files, with the names of the files. -/
def definitionsOf (dir : String) (files : List (String × Except FileFault Text.Bytes)) : List (String × Definition) :=
  files.filterMap fun f => (readFile dir f).toOption.map fun d => (f.1, d)

theorem mem_definitionsOf :
    (file, d) ∈ definitionsOf dir files ↔ ∃ bytes, (file, bytes) ∈ files ∧ readFile dir (file, bytes) = .ok d := by
  simp [definitionsOf, toOption_eq_some_iff]

theorem pairwise_definitionsOf (h : files.Pairwise fun a b => a.1 < b.1) :
    (definitionsOf dir files).Pairwise fun a b => a.1 < b.1 := by
  refine List.Pairwise.filterMap _ (fun f f' hlt e he e' he' => ?_) h
  obtain ⟨d, -, rfl⟩ := Option.map_eq_some_iff.1 he
  obtain ⟨d', -, rfl⟩ := Option.map_eq_some_iff.1 he'
  exact hlt

/-- Files in order give all their definitions, or the error of the first one that gives none. -/
theorem addFiles_cases (dir : String) (h : files.Pairwise fun a b => a.1 < b.1) (r : Registry) :
    (∀ f ∈ files, ∃ d, readFile dir f = .ok d) ∧ addFiles dir r files = .ok (r.addAll (definitionsOf dir files)) ∨
      ∃ f ∈ files, ∃ e, readFile dir f = .error e ∧ addFiles dir r files = .error e ∧
        ∀ f' ∈ files, ∀ e', readFile dir f' = .error e' → f.1 ≤ f'.1 := by
  induction files generalizing r with
  | nil => exact .inl ⟨nofun, rfl⟩
  | cons f files ih =>
    have hlater : ∀ f' ∈ files, f.1 ≤ f'.1 := fun f' hf' => String.lt_asymm (List.rel_of_pairwise_cons h hf')
    cases hread : readFile dir f with
    | error e =>
      refine .inr ⟨f, List.mem_cons_self, e, hread, ?_, ?_⟩
      · rw [addFiles, List.foldlM_cons, hread]
        rfl
      · exact List.forall_mem_cons.2 ⟨fun _ _ => String.le_refl f.1, fun f' hf' _ _ => hlater f' hf'⟩
    | ok d =>
      have hadd : addFiles dir r (f :: files) = addFiles dir (r.insert d) files := by
        rw [addFiles, List.foldlM_cons, hread]
        rfl
      have hdefinitions : definitionsOf dir (f :: files) = (f.1, d) :: definitionsOf dir files := by
        rw [definitionsOf, List.filterMap_cons, hread]
        rfl
      rw [hadd, hdefinitions, addAll_cons]
      rcases ih h.of_cons (r.insert d) with ⟨hall, hok⟩ | ⟨f', hf', e, he, herror, hfirst⟩
      · exact .inl ⟨List.forall_mem_cons.2 ⟨⟨d, hread⟩, hall⟩, hok⟩
      · refine .inr ⟨f', List.mem_cons_of_mem f hf', e, he, herror, List.forall_mem_cons.2 ⟨?_, hfirst⟩⟩
        intro e' he'
        rw [hread] at he'
        cases he'

theorem isDefinitionName_iff : (extension? file = some "yaml" || extension? file = some "yml") = true ↔
    ∃ stem, stem ≠ "" ∧ (file = stem ++ ".yaml" ∨ file = stem ++ ".yml") := by
  have hyaml : extension? file = some "yaml" ↔ ∃ stem, stem ≠ "" ∧ file = stem ++ "." ++ "yaml" :=
    extension?_eq_some_iff_of_ne_empty (by decide) (by decide)
  have hyml : extension? file = some "yml" ↔ ∃ stem, stem ≠ "" ∧ file = stem ++ "." ++ "yml" :=
    extension?_eq_some_iff_of_ne_empty (by decide) (by decide)
  have happend (stem ext : String) : stem ++ "." ++ ext = stem ++ ("." ++ ext) := String.append_assoc
  simp only [Bool.or_eq_true, decide_eq_true_eq, hyaml, hyml, happend, and_or_left, exists_or]
  exact Iff.rfl

/-- A regular file of a listing, if its name is that of a file with a definition. -/
def definitionFile? : String × DirEntry → Option (String × Except FileFault Text.Bytes)
  | (name, .file content) =>
    if extension? name = some "yaml" || extension? name = some "yml" then some (name, content) else none
  | _ => none

theorem definitionFiles_eq (listing : Listing) :
    definitionFiles listing = (listing.filterMap definitionFile?).mergeSort fun a b => a.1 ≤ b.1 := rfl

theorem definitionFile?_eq_some_iff {entry : String × DirEntry} {f : String × Except FileFault Text.Bytes} :
    definitionFile? entry = some f ↔
      entry = (f.1, .file f.2) ∧ ∃ stem, stem ≠ "" ∧ (f.1 = stem ++ ".yaml" ∨ f.1 = stem ++ ".yml") := by
  rw [← isDefinitionName_iff]
  constructor
  · intro h
    obtain ⟨name, _ | _⟩ := entry
    · obtain ⟨hnamed, hf⟩ := Option.ite_none_right_eq_some.1 h
      cases hf
      exact ⟨rfl, hnamed⟩
    · cases h
  · rintro ⟨rfl, hnamed⟩
    exact if_pos hnamed

theorem mem_definitionFiles (h : listing.Perm content.entries) :
    (file, bytes) ∈ definitionFiles listing ↔ HoldsFile content file bytes := by
  rw [definitionFiles_eq, List.mem_mergeSort, List.mem_filterMap]
  constructor
  · rintro ⟨entry, hmem, hentry⟩
    obtain ⟨rfl, hnamed⟩ := definitionFile?_eq_some_iff.1 hentry
    exact ⟨Dict.find?_eq_some_iff.2 (h.mem_iff.1 hmem), hnamed⟩
  · rintro ⟨hregular, hnamed⟩
    exact ⟨_, h.mem_iff.2 (Dict.find?_eq_some_iff.1 hregular), definitionFile?_eq_some_iff.2 ⟨rfl, hnamed⟩⟩

/-- Files of different names are sorted strictly. -/
theorem pairwise_definitionFiles (h : listing.Perm content.entries) :
    (definitionFiles listing).Pairwise fun a b => a.1 < b.1 := by
  have hnames : listing.Pairwise fun a b => a.1 ≠ b.1 :=
    h.symm.pairwise (content.ordered.imp fun hlt => String.ne_of_lt hlt) Ne.symm
  have hkept : (listing.filterMap definitionFile?).Pairwise fun a b => a.1 ≠ b.1 := by
    refine List.Pairwise.filterMap _ (fun entry entry' hne f hf f' hf' => ?_) hnames
    obtain ⟨rfl, -⟩ := definitionFile?_eq_some_iff.1 hf
    obtain ⟨rfl, -⟩ := definitionFile?_eq_some_iff.1 hf'
    exact hne
  have hne : (definitionFiles listing).Pairwise fun a b => a.1 ≠ b.1 :=
    (List.mergeSort_perm _ _).symm.pairwise hkept Ne.symm
  have hle : (definitionFiles listing).Pairwise fun a b => decide (a.1 ≤ b.1) = true := by
    refine List.pairwise_mergeSort (fun a b c hab hbc => ?_) (fun a b => ?_) _
    · exact decide_eq_true (String.le_trans (of_decide_eq_true hab) (of_decide_eq_true hbc))
    · rw [Bool.or_eq_true, decide_eq_true_eq, decide_eq_true_eq]
      exact String.le_total a.1 b.1
  refine (hle.and hne).imp fun ⟨hab, hnab⟩ => String.not_le.1 fun hba => ?_
  exact hnab (String.le_antisymm (of_decide_eq_true hab) hba)

theorem definitionFiles_congr (h : listing.Perm content.entries) :
    definitionFiles listing = definitionFiles content.entries := by
  have hperm : (definitionFiles listing).Perm (definitionFiles content.entries) :=
    ((List.mergeSort_perm _ _).trans (h.filterMap _)).trans (List.mergeSort_perm _ _).symm
  refine List.Perm.eq_of_pairwise (fun a b _ _ hab hba => absurd hba (String.lt_asymm hab))
    (pairwise_definitionFiles h) (pairwise_definitionFiles (List.Perm.refl _)) hperm

end Reading

end Registry

end ScriptRunner.Script
