import ScriptRunner.Proofs.Json.Typed

/-!
# Laws of the decoders

A decoder takes a value from a JSON value if it finds it in the document of that JSON value wherever there is room for
it (`Json.Takes`). Each decoder has a law that says which values it takes from which JSON values, and the law of a
decoder made of others follows from theirs: of lists and dictionaries, of values that may be absent, of names out of a
few, and of records, whose fields take their values one by one (`Fields.Take`). A type that keeps these laws round-trips
through its compact text, and its texts tell its values apart (`Json.RoundTrips`).
-/

namespace ScriptRunner

namespace Json

variable {α β : Type} {d : Decoder Scalar α} {v w : Json} {a b : α} {f : α → Json}

/-- The decoder takes the value from the document of the JSON value wherever there is room for it. -/
def Takes (d : Decoder Scalar α) (v : Json) (a : α) : Prop :=
  ∀ p : Place, v.depth ≤ p.room → d p (written v) = .ok a

/-- A value that is passed on as it is: in stored form, with numbers that read back. -/
structure Portable (v : Json) : Prop where
  stored : Stored v
  floats : ∀ x ∈ v.floats, ReadsBack x

end Json

open Json

/-- Each field takes its value from the member of its name. -/
inductive Fields.Take : {αs : List Type} → Fields Scalar αs → List (String × Json) → Values αs → Prop
  | done : Take .done [] ()
  | more {α : Type} {αs : List Type} {f : Field Scalar α} {rest : Fields Scalar αs} {v : Json} {a : α}
      {ms : List (String × Json)} {vs : Values αs} (head : Takes f.decode v a) (tail : Take rest ms vs) :
      Take (.more f rest) ((f.name, v) :: ms) (a, vs)

namespace Fields.Take

variable {αs : List Type} {fs : Fields Scalar αs} {ms : List (String × Json)} {vs : Values αs} {p : Place}

theorem map_fst (h : fs.Take ms vs) : ms.map Prod.fst = fs.names := by
  induction h with
  | done => rfl
  | more _ _ ih => exact congrArg (List.cons _) ih

theorem inOrder (h : fs.Take ms vs) (hd : ∀ m ∈ ms, m.2.depth ≤ p.room) :
    fs.inOrder p (ms.map fun m => written m.2) = .ok vs := by
  induction h with
  | done => rfl
  | more head _ ih =>
    obtain ⟨hv, hms⟩ := List.forall_mem_cons.1 hd
    exact bind_eq_ok_iff.2 ⟨_, head _ hv, map_eq_ok_iff.2 ⟨_, ih hms, rfl⟩⟩

end Fields.Take

namespace Json

variable {α β : Type} {d : Decoder Scalar α} {v w : Json} {a b : α} {f : α → Json}

namespace Takes

/-! ## Scalars -/

theorem string (s : String) : Takes Decoder.string (.string s) s := fun p _ => string_written p s

theorem boolean (b : Bool) : Takes Decoder.boolean (.bool b) b := fun p _ => boolean_written p b

theorem uint16 (n : UInt16) : Takes Decoder.uint16 (.int n.toNat) n := fun p _ => uint16_written p n

theorem uint32 (n : UInt32) : Takes Decoder.uint32 (.int n.toNat) n := fun p _ => uint32_written p n

theorem uint64 (n : UInt64) : Takes Decoder.uint64 (.int n.toNat) n := fun p _ => uint64_written p n

theorem usize (n : UInt64) : Takes Decoder.usize (.int n.toNat) n := fun p _ => usize_written p n

theorem int64 (n : Int64) : Takes Decoder.int64 (.int n.toInt) n := fun p _ => int64_written p n

theorem integer {range : IntRange} {n : Int} (hr : range.contains n = true) (hn : Fits n) :
    Takes (Decoder.integer range) (.int n) n :=
  fun p _ => integer_written_of_contains p hr hn

theorem any (hv : v.Portable) : Takes Decoder.any v v := fun _ hd => any_written hv.stored hv.floats hd

/-- A name that stands for one of a few values. -/
theorem choice {choices : List (String × α)} {name : String}
    (h : (choices.find? fun c => c.1 == name) = some (name, a)) : Takes (Decoder.choice choices) (.string name) a := by
  intro p _
  have hname : writtenVariant (choices.map Prod.fst) (written (.string name)) = .ok name :=
    bind_eq_ok_iff.2 ⟨.string name, atom_string name, rfl⟩
  refine Decoder.atPlace_eq_ok_iff.2 (bind_eq_ok_iff.2 ⟨name, hname, ?_⟩)
  simp only [h]

/-- A value that is worked out from another one. -/
theorem derived {g : α → Except Cause β} {b : β} (h : Takes d v a) (hg : g a = .ok b) : Takes (d.derived g) v b := by
  intro p hd
  refine bind_eq_ok_iff.2 ⟨a, h p hd, ?_⟩
  simp only [hg]

/-! ## Values that may be absent -/

theorem absent : Takes (Decoder.optional d) .null none := fun _ _ => rfl

theorem present (h : Takes d v a) (hv : v ≠ .null) : Takes (Decoder.optional d) v (some a) := by
  intro p hd
  have hsome : (d p (written v)).map some = .ok (some a) := map_eq_ok_iff.2 ⟨a, h p hd, rfl⟩
  cases v with
  | null => exact absurd rfl hv
  | bool _ => exact hsome
  | int _ => exact hsome
  | float _ => exact hsome
  | string _ => exact hsome
  | array _ => exact hsome
  | object _ => exact hsome

theorem optional {o : Option α} (h : ∀ a ∈ o, Takes d (f a) a) (hf : ∀ a, f a ≠ .null) :
    Takes (Decoder.optional d) ((o.map f).getD .null) o := by
  cases o with
  | none => exact absent
  | some a => exact present (h a rfl) (hf a)

theorem optionalText (o : Option String) : Takes (Decoder.optional Decoder.string) (Script.optionalText o) o :=
  fun p _ => optional_written p o

/-! ## Collections -/

theorem listItems {as : List α} {p : Place} (i : Nat) (h : ∀ a ∈ as, Takes d (f a) a)
    (hd : ∀ a ∈ as, (f a).depth ≤ p.room) : Decoder.listItems d p i (writtenItems (as.map f)) = .ok as := by
  induction as generalizing i with
  | nil => rfl
  | cons a as ih =>
    obtain ⟨ha, has⟩ := List.forall_mem_cons.1 h
    obtain ⟨hda, hdas⟩ := List.forall_mem_cons.1 hd
    exact bind_eq_ok_iff.2 ⟨a, ha _ hda, bind_eq_ok_iff.2 ⟨as, ih (i + 1) has hdas, rfl⟩⟩

theorem list {as : List α} (h : ∀ a ∈ as, Takes d (f a) a) : Takes (Decoder.list d) (.array (as.map f)) as := by
  intro p hd
  obtain ⟨n, hn⟩ : ∃ n, p.room = n + 1 := ⟨p.room - 1, by rw [depth] at hd; omega⟩
  rw [depth, hn] at hd
  have hitems := depthItems_le_iff.1 (Nat.le_of_succ_le_succ hd)
  exact Decoder.inside_eq_ok_iff.2
    ⟨n, hn, listItems 0 h fun a ha => hitems _ (List.mem_map_of_mem ha)⟩

theorem entries {es : List (String × α)} {p : Place} (h : ∀ e ∈ es, Takes d (f e.2) e.2)
    (hd : ∀ e ∈ es, (f e.2).depth ≤ p.room) :
    Decoder.entries d p (writtenMembers (es.map fun e => (e.1, f e.2))) = .ok es := by
  induction es with
  | nil => rfl
  | cons e es ih =>
    obtain ⟨he, hes⟩ := List.forall_mem_cons.1 h
    obtain ⟨hde, hdes⟩ := List.forall_mem_cons.1 hd
    exact bind_eq_ok_iff.2 ⟨e.1, string_written p e.1, bind_eq_ok_iff.2 ⟨e.2, he _ hde,
      bind_eq_ok_iff.2 ⟨es, ih hes hdes, rfl⟩⟩⟩

theorem dict {es : Dict α} (h : ∀ e ∈ es.entries, Takes d (f e.2) e.2) :
    Takes (Decoder.dict d) (.object (es.entries.map fun e => (e.1, f e.2))) es := by
  intro p hd
  obtain ⟨n, hn⟩ : ∃ n, p.room = n + 1 := ⟨p.room - 1, by rw [depth] at hd; omega⟩
  rw [depth, hn] at hd
  have hmembers := depthMembers_le_iff.1 (Nat.le_of_succ_le_succ hd)
  have hentries : Decoder.entries d ⟨p.path, n⟩ (writtenMembers (es.entries.map fun e => (e.1, f e.2))) =
      .ok es.entries := entries h fun e he => hmembers _ (List.mem_map_of_mem (f := fun e => (e.1, f e.2)) he)
  exact Decoder.inside_eq_ok_iff.2 ⟨n, hn, map_eq_ok_iff.2 ⟨es.entries, hentries, es.ofList_entries⟩⟩

theorem textsByKey (es : Dict String) : Takes (Decoder.dict Decoder.string) (Script.textsByKey es) es :=
  dict fun e _ => string e.2

theorem valuesByKey {es : Dict Json} (hs : StoredMembers es.entries) (hf : ∀ x ∈ memberFloats es.entries, ReadsBack x) :
    Takes (Decoder.dict Decoder.any) (.object es.entries) es :=
  fun _ hd => dict_written hs hf hd

/-! ## Records -/

theorem record {αs : List Type} {fs : Fields Scalar αs} {want : String} {build : Values αs → α}
    {ms : List (String × Json)} {vs : Values αs} (hn : fs.names.Nodup) (h : fs.Take ms vs) (ha : build vs = a) :
    Takes (fs.decoder want build) (.object ms) a := by
  intro p hd
  obtain ⟨n, hroom⟩ : ∃ n, p.room = n + 1 := ⟨p.room - 1, by rw [depth] at hd; omega⟩
  rw [depth, hroom] at hd
  have hmembers := depthMembers_le_iff.1 (Nat.le_of_succ_le_succ hd)
  rw [written, decoder_written hn h.map_fst]
  exact Decoder.inside_eq_ok_iff.2 ⟨n, hroom, map_eq_ok_iff.2 ⟨vs, h.inOrder hmembers, ha⟩⟩

/-! ## Whole texts -/

theorem decodeText_compact (h : Takes d v a) (hd : v.depth ≤ Format.depthLimit Scalar) :
    decodeText d v.compact = .ok a := by
  rw [decodeText, compact, String.toList_ofList, decodeChars_chars]
  exact h _ hd

/-- Values that are taken from the same text are the same, however deep it is. -/
theorem eq_of_compact (ha : Takes d v a) (hb : Takes d w b) (h : v.compact = w.compact) : a = b := by
  have hwritten : written v = written w := by
    have hread := congrArg (fun s : String => (read s.toList).document) h
    simpa only [compact, String.toList_ofList, read_chars] using hread
  -- Both are taken where there is room for both, beyond the limit of the reader if need be.
  have hv := ha ⟨[], max v.depth w.depth⟩ (Nat.le_max_left ..)
  have hw := hb ⟨[], max v.depth w.depth⟩ (Nat.le_max_right ..)
  rw [hwritten] at hv
  exact Except.ok.inj (hv.symm.trans hw)

end Takes

/-- The values of a type that pass a condition are read back from their compact text. -/
structure RoundTrips (f : α → Json) (d : Decoder Scalar α) (Passable : α → Prop) : Prop where
  /-- The text of a value that is not too deep for the reader decodes to the value. -/
  decodeText_compact : ∀ a, Passable a → (f a).depth ≤ Format.depthLimit Scalar →
    decodeText d (f a).compact = .ok a
  /-- Different values have different texts, however deep they are. -/
  compact_injective : ∀ a b, Passable a → Passable b → (f a).compact = (f b).compact → a = b

namespace RoundTrips

variable {Passable : α → Prop}

/-- A type whose decoder stops at some level round-trips if the level is beyond the limit of the reader. -/
theorem of_levels {d : Nat → Decoder Scalar α} {limit : Nat} (hlimit : Format.depthLimit Scalar ≤ limit)
    (h : ∀ {levels a}, Passable a → (f a).depth ≤ levels → Takes (d levels) (f a) a) :
    RoundTrips f (d limit) Passable where
  decodeText_compact _ ha hd := (h ha (Nat.le_trans hd hlimit)).decodeText_compact hd
  compact_injective a b ha hb :=
    (h ha (Nat.le_max_left (f a).depth (f b).depth)).eq_of_compact (h hb (Nat.le_max_right ..))

theorem of_takes (h : ∀ {a}, Passable a → Takes d (f a) a) : RoundTrips f d Passable where
  decodeText_compact _ ha := (h ha).decodeText_compact
  compact_injective _ _ ha hb := (h ha).eq_of_compact (h hb)

end RoundTrips

end Json

end ScriptRunner
