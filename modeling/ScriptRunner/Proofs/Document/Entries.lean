import ScriptRunner.Proofs.Document.Records

/-!
# What the fields of a record hold

The entries of a mapping under a name are counted together (`Document.valuesOf`). A record that is decoded from a mapping
has at most one entry for each of its fields, and the field holds the value of this entry, or the one that it has when
it is not written (`Fields.hold_of_fromEntries`). A record that is written as a scalar without parts has no entry.
-/

namespace ScriptRunner

variable {σ α : Type} {αs : List Type}

theorem Fields.notMem_names_of_fill? {p : Place} {key : String} {v : Document σ} : ∀ {αs : List Type} {fs : Fields σ αs}
    {slots : Slots αs}, fs.fill? p key v slots = none → key ∉ fs.names
  | _, .done, _, _ => List.not_mem_nil
  | _, .more f rest, (slot, slots), h => by
    simp only [fill?] at h
    split at h
    · cases slot <;> cases h
    · rename_i hname
      have hrest := notMem_names_of_fill? (Option.map_eq_none_iff.1 h)
      simpa [names, Ne.symm hname] using hrest

variable [Format σ]

namespace Document

variable {k v : Document σ} {es : List (Document σ × Document σ)} {name key : String}

/-- The name that a key stands for. -/
def name? : Document σ → Option String
  | .scalar s => (Format.string s).toOption
  | _ => none

/-- The values under a name. -/
def valuesOf (name : String) (es : List (Document σ × Document σ)) : List (Document σ) :=
  es.filterMap fun e => if e.1.name? = some name then some e.2 else none

/-- The entries of a mapping; any other document has none. -/
def entries : Document σ → List (Document σ × Document σ)
  | .mapping es => es
  | _ => []

theorem name?_of_key {p : Place} (h : Fields.key p k = .ok key) : k.name? = some key := by
  cases k with
  | scalar s =>
    have hs : (Format.string s : Except Cause String) = .ok key := Decoder.atPlace_eq_ok_iff.1 h
    rw [name?, hs]
    rfl
  | sequence items => cases h
  | mapping es => cases h
  | damaged => cases h

theorem valuesOf_cons_self (h : k.name? = some name) : valuesOf name ((k, v) :: es) = v :: valuesOf name es := by
  simp [valuesOf, h]

theorem valuesOf_cons_of_ne (h : k.name? = some key) (hne : name ≠ key) :
    valuesOf name ((k, v) :: es) = valuesOf name es := by
  simp [valuesOf, h, Ne.symm hne]

end Document

open Document (valuesOf)

/-- What a field holds of a mapping: the value of the only entry under its name, or the one that it has without any. -/
def Field.held? (f : Field σ α) (p : Place) (es : List (Document σ × Document σ)) : Option α :=
  match valuesOf f.name es with
  | [] => f.absent
  | [d] => (f.decode (p.under (.field f.name)) d).toOption
  | _ => none

/-- How the entries fill the slot of a field: it stays as it is without an entry of its name, and one entry fills it if
it is empty. -/
def Field.Fills (f : Field σ α) (p : Place) (es : List (Document σ × Document σ)) (slot slot' : Option α) : Prop :=
  valuesOf f.name es = [] ∧ slot' = slot ∨
    slot = none ∧ ∃ d a, valuesOf f.name es = [d] ∧ f.decode (p.under (.field f.name)) d = .ok a ∧ slot' = some a

/-- An entry under another name leaves a slot alone. -/
theorem Field.Fills.cons_of_ne {f : Field σ α} {p : Place} {k v : Document σ} {es : List (Document σ × Document σ)}
    {key : String} {slot slot' : Option α} (hk : k.name? = some key) (hne : f.name ≠ key)
    (h : f.Fills p es slot slot') : f.Fills p ((k, v) :: es) slot slot' := by
  rw [Field.Fills, Document.valuesOf_cons_of_ne hk hne]
  exact h

namespace Fields

variable {p : Place} {k v : Document σ} {es : List (Document σ × Document σ)} {key : String}

/-- Each field holds its value. -/
def Hold (p : Place) (es : List (Document σ × Document σ)) : {αs : List Type} → Fields σ αs → Values αs → Prop
  | _, .done, _ => True
  | _, .more f rest, (a, vs) => f.held? p es = some a ∧ rest.Hold p es vs

/-- The entries fill the slots of all fields. -/
def Fill (p : Place) (es : List (Document σ × Document σ)) : {αs : List Type} → Fields σ αs → Slots αs → Slots αs → Prop
  | _, .done, _, _ => True
  | _, .more f rest, (slot, slots), (slot', slots') => f.Fills p es slot slot' ∧ rest.Fill p es slots slots'

theorem fill_nil : ∀ {αs : List Type} (fs : Fields σ αs) (slots : Slots αs), fs.Fill p [] slots slots
  | _, .done, _ => trivial
  | _, .more _ rest, (_, slots) => ⟨.inl ⟨rfl, rfl⟩, rest.fill_nil slots⟩

theorem fill_cons_of_notMem (hk : k.name? = some key) : ∀ {αs : List Type} {fs : Fields σ αs} {slots slots' : Slots αs},
    key ∉ fs.names → fs.Fill p es slots slots' → fs.Fill p ((k, v) :: es) slots slots'
  | _, .done, _, _, _, _ => trivial
  | _, .more f rest, (_, _), (_, _), hkey, h => by
    obtain ⟨hne, hkey⟩ : key ≠ f.name ∧ key ∉ rest.names := by simpa [names] using hkey
    exact ⟨Field.Fills.cons_of_ne hk (Ne.symm hne) h.1, fill_cons_of_notMem hk hkey h.2⟩

/-- An entry fills the empty slot of its field, which no later entry fills again. -/
theorem fill_cons_of_fill? (hk : k.name? = some key) : ∀ {αs : List Type} {fs : Fields σ αs}
    {slots slots₁ slots' : Slots αs}, fs.names.Nodup → fs.fill? p key v slots = some (.ok slots₁) →
      fs.Fill p es slots₁ slots' → fs.Fill p ((k, v) :: es) slots slots'
  | _, .done, _, _, _, _, h, _ => by cases h
  | _, .more f rest, (slot, slots), slots₁, (slot', slots'), hn, h, hfill => by
    obtain ⟨hf, hn⟩ := List.nodup_cons.1 hn
    simp only [fill?] at h
    split at h
    · rename_i hname
      cases slot with
      | some a => cases h
      | none =>
        obtain ⟨a, ha, rfl⟩ := map_eq_ok_iff.1 (Option.some.inj h)
        obtain ⟨hfirst, hrest⟩ := hfill
        rcases hfirst with ⟨hnone, hslot⟩ | ⟨hslot, -⟩
        · refine ⟨.inr ⟨rfl, v, a, ?_, ?_, hslot⟩, fill_cons_of_notMem hk (hname ▸ hf) hrest⟩
          · rw [Document.valuesOf_cons_self (hname ▸ hk), hnone]
          · rw [hname]
            exact ha
        · cases hslot
    · rename_i hname
      obtain ⟨r, hr, he⟩ := Option.map_eq_some_iff.1 h
      obtain ⟨slots₂, rfl, rfl⟩ := map_eq_ok_iff.1 he
      exact ⟨Field.Fills.cons_of_ne hk hname hfill.1, fill_cons_of_fill? hk hn hr hfill.2⟩

theorem fill_of_fillEntries {fs : Fields σ αs} {slots slots' : Slots αs} (hn : fs.names.Nodup)
    (h : fs.fillEntries p es slots = .ok slots') : fs.Fill p es slots slots' := by
  induction es generalizing slots with
  | nil =>
    obtain rfl := Except.ok.inj h
    exact fs.fill_nil slots
  | cons e es ih =>
    obtain ⟨k, v⟩ := e
    obtain ⟨key, hkey, h⟩ := bind_eq_ok_iff.1 h
    have hk := Document.name?_of_key hkey
    split at h
    · rename_i r hr
      obtain ⟨slots₁, rfl, h⟩ := bind_eq_ok_iff.1 h
      exact fill_cons_of_fill? hk hn hr (ih h)
    · rename_i hr
      split at h
      · exact fill_cons_of_notMem hk (notMem_names_of_fill? hr) (ih h)
      · cases h

/-- Slots that were empty settle into what the fields hold. -/
theorem hold_of_settle : ∀ {αs : List Type} {fs : Fields σ αs} {slots : Slots αs} {vs : Values αs},
    fs.Fill p es fs.noSlots slots → fs.settle slots = .ok vs → fs.Hold p es vs
  | _, .done, _, _, _, _ => trivial
  | _, .more f rest, (slot, slots), vs, hfill, h => by
    simp only [settle] at h
    split at h
    · rename_i a ha
      obtain ⟨vs', hvs, rfl⟩ := map_eq_ok_iff.1 h
      refine ⟨?_, hold_of_settle hfill.2 hvs⟩
      rcases hfill.1 with ⟨hnone, rfl⟩ | ⟨-, d, b, hone, hb, rfl⟩
      · rw [Field.held?, hnone]
        exact ha
      · obtain rfl := Option.some.inj ha
        simp only [Field.held?, hone, hb]
        rfl
    · cases h

theorem hold_of_fromEntries {fs : Fields σ αs} {vs : Values αs} (hn : fs.names.Nodup)
    (h : fs.fromEntries p es = .ok vs) : fs.Hold p es vs := by
  obtain ⟨slots, hslots, h⟩ := bind_eq_ok_iff.1 h
  exact hold_of_settle (fill_of_fillEntries hn hslots) h

/-- **What a record holds**, where records are not written as sequences: what its fields hold of its entries. -/
theorem hold_of_decoder {fs : Fields σ αs} {want : String} {build : Values αs → α} {d : Document σ} {a : α}
    (hsequences : Format.recordsAsSequences σ = false) (hn : fs.names.Nodup) (h : fs.decoder want build p d = .ok a) :
    ∃ vs, fs.Hold ⟨p.path, p.room - 1⟩ d.entries vs ∧ build vs = a := by
  unfold decoder at h
  split at h
  · obtain ⟨n, hroom, h⟩ := Decoder.inside_eq_ok_iff.1 h
    obtain ⟨vs, hvs, he⟩ := map_eq_ok_iff.1 h
    rw [hroom]
    exact ⟨vs, hold_of_fromEntries hn hvs, he⟩
  · rw [hsequences, if_neg Bool.false_ne_true] at h
    exact absurd h Decoder.mismatch_ne_ok
  · split at h
    · obtain ⟨vs, hvs, he⟩ := map_eq_ok_iff.1 (mapError_eq_ok_iff.1 h)
      -- Nothing is decoded anywhere, so the place does not matter.
      have hnowhere : fs.fromEntries ⟨p.path, p.room - 1⟩ [] = .ok vs := hvs
      exact ⟨vs, hold_of_fromEntries hn hnowhere, he⟩
    · exact absurd h Decoder.mismatch_ne_ok
  · exact absurd h Decoder.mismatch_ne_ok

end Fields

end ScriptRunner
