import ScriptRunner.Proofs.Document.Outcomes

/-!
# Decoders that look at everything

A decoder is thorough if what it decodes is whole. The decoders of scalars are, since a scalar is whole
(`thorough_ofScalar`), values of any type are looked at down to their scalars (`thorough_any`), and a record is thorough
if its fields are, because the entries that it skips have to be whole as well (`Fields.thorough_decoder`).
-/

namespace ScriptRunner

open Document (areWhole areWholeEntries)

variable {σ α β : Type} {αs : List Type}

/-- The decoder succeeds on whole documents only. -/
def Decoder.Thorough (d : Decoder σ α) : Prop :=
  ∀ (p : Place) (doc : Document σ) (a : α), d p doc = .ok a → doc.isWhole = true

theorem areWhole_cons {d : Document σ} {ds : List (Document σ)} (hd : d.isWhole = true) (hds : areWhole ds = true) :
    areWhole (d :: ds) = true :=
  Bool.and_eq_true_iff.2 ⟨hd, hds⟩

theorem areWholeEntries_cons {k v : Document σ} {es : List (Document σ × Document σ)} (hk : k.isWhole = true)
    (hv : v.isWhole = true) (hes : areWholeEntries es = true) : areWholeEntries ((k, v) :: es) = true :=
  Bool.and_eq_true_iff.2 ⟨Bool.and_eq_true_iff.2 ⟨hk, hv⟩, hes⟩

namespace Decoder

/-! ## Scalars -/

section Scalars

theorem Thorough.map {d : Decoder σ α} (hd : d.Thorough) (f : α → β) : (d.map f).Thorough := by
  intro p doc b h
  obtain ⟨a, ha, -⟩ := map_eq_ok_iff.1 h
  exact hd p doc a ha

theorem Thorough.derived {d : Decoder σ α} (hd : d.Thorough) (f : α → Except Cause β) : (d.derived f).Thorough := by
  intro p doc b h
  obtain ⟨a, ha, -⟩ := bind_eq_ok_iff.1 h
  exact hd p doc a ha

variable [Format σ]

theorem thorough_ofScalar (want : String) (read : σ → Except Cause α) : (ofScalar want read).Thorough := by
  intro p doc a h
  cases doc with
  | scalar s => rfl
  | sequence items => cases h
  | mapping es => cases h
  | damaged => cases h

theorem thorough_string : (string : Decoder σ String).Thorough := thorough_ofScalar _ _

theorem thorough_integer (range : IntRange) : (integer range : Decoder σ Int).Thorough := thorough_ofScalar _ _

end Scalars

/-! ## Values of any type -/

section Values

variable [Format σ]

mutual

/-- **A value of any type** is looked at in all its parts. -/
theorem thorough_any : ∀ (p : Place) (doc : Document σ) (v : Json), any p doc = .ok v → doc.isWhole = true
  | _, .scalar _, _, _ => rfl
  | _, .sequence items, _, h => by
    obtain ⟨n, -, h⟩ := inside_eq_ok_iff.1 h
    obtain ⟨as, has, -⟩ := map_eq_ok_iff.1 h
    exact areWhole_of_anyItems has
  | _, .mapping es, _, h => by
    obtain ⟨n, -, h⟩ := inside_eq_ok_iff.1 h
    obtain ⟨ms, hms, -⟩ := map_eq_ok_iff.1 h
    exact areWholeEntries_of_anyEntries hms
  | _, .damaged, _, h => by cases h

theorem areWhole_of_anyItems : ∀ {p : Place} {i : Nat} {ds : List (Document σ)} {as : List Json},
    anyItems p i ds = .ok as → areWhole ds = true
  | _, _, [], _, _ => rfl
  | _, _, d :: ds, _, h => by
    obtain ⟨a, ha, h⟩ := bind_eq_ok_iff.1 h
    obtain ⟨as, has, -⟩ := bind_eq_ok_iff.1 h
    exact areWhole_cons (thorough_any _ d a ha) (areWhole_of_anyItems has)

theorem areWholeEntries_of_anyEntries : ∀ {p : Place} {es : List (Document σ × Document σ)}
    {ms : List (String × Json)}, anyEntries p es = .ok ms → areWholeEntries es = true
  | _, [], _, _ => rfl
  | _, (k, d) :: es, _, h => by
    obtain ⟨key, hkey, h⟩ := bind_eq_ok_iff.1 h
    obtain ⟨a, ha, h⟩ := bind_eq_ok_iff.1 h
    obtain ⟨ms, hms, -⟩ := bind_eq_ok_iff.1 h
    exact areWholeEntries_cons (thorough_string _ k key hkey) (thorough_any _ d a ha)
      (areWholeEntries_of_anyEntries hms)

end

end Values

end Decoder

/-! ## Records -/

namespace Fields

/-- The decoders of all fields are thorough. -/
def Thorough : {αs : List Type} → Fields σ αs → Prop
  | _, .done => True
  | _, .more f rest => f.decode.Thorough ∧ rest.Thorough

theorem isWhole_of_fill? {p : Place} {key : String} {value : Document σ} :
    ∀ {αs : List Type} {fs : Fields σ αs} {slots slots' : Slots αs}, fs.Thorough →
      fs.fill? p key value slots = some (.ok slots') → value.isWhole = true
  | _, .done, _, _, _, h => by cases h
  | _, .more f rest, (slot, slots), _, hfs, h => by
    simp only [fill?] at h
    split at h
    · cases slot with
      | some a => cases h
      | none =>
        obtain ⟨a, ha, -⟩ := map_eq_ok_iff.1 (Option.some.inj h)
        exact hfs.1 _ value a ha
    · obtain ⟨r, hr, he⟩ := Option.map_eq_some_iff.1 h
      obtain ⟨slots', rfl, -⟩ := map_eq_ok_iff.1 he
      exact isWhole_of_fill? hfs.2 hr

theorem areWhole_of_fromItems {p : Place} : ∀ {αs : List Type} {fs : Fields σ αs} {i : Nat}
    {ds : List (Document σ)} {vs : Values αs}, fs.Thorough → fs.fromItems p i ds = .ok vs → areWhole ds = true
  | _, .done, _, [], _, _, _ => rfl
  | _, .done, _, _ :: _, _, _, h => by cases h
  | _, .more _ _, _, [], _, _, _ => rfl
  | _, .more _ _, _, d :: ds, _, hfs, h => by
    obtain ⟨a, ha, h⟩ := bind_eq_ok_iff.1 h
    obtain ⟨vs, hvs, -⟩ := map_eq_ok_iff.1 h
    exact areWhole_cons (hfs.1 _ d a ha) (areWhole_of_fromItems hfs.2 hvs)

variable [Format σ]

theorem areWholeEntries_of_fillEntries {p : Place} {fs : Fields σ αs} {es : List (Document σ × Document σ)}
    {slots slots' : Slots αs} (hfs : fs.Thorough) (h : fs.fillEntries p es slots = .ok slots') :
    areWholeEntries es = true := by
  induction es generalizing slots with
  | nil => rfl
  | cons e es ih =>
    obtain ⟨k, v⟩ := e
    obtain ⟨name, hname, h⟩ := bind_eq_ok_iff.1 h
    have hk : k.isWhole = true := Decoder.thorough_ofScalar _ _ p k name hname
    split at h
    · rename_i r hr
      obtain ⟨slots'', rfl, h⟩ := bind_eq_ok_iff.1 h
      exact areWholeEntries_cons hk (isWhole_of_fill? hfs hr) (ih h)
    · split at h
      · rename_i hv
        exact areWholeEntries_cons hk hv (ih h)
      · cases h

/-- **A record is thorough** if its fields are, whichever way it is written. -/
theorem thorough_decoder {fs : Fields σ αs} (hfs : fs.Thorough) (want : String) (build : Values αs → α) :
    (fs.decoder want build).Thorough := by
  intro p doc a h
  unfold decoder at h
  split at h
  · obtain ⟨n, -, h⟩ := Decoder.inside_eq_ok_iff.1 h
    obtain ⟨vs, hvs, -⟩ := map_eq_ok_iff.1 h
    obtain ⟨slots, hslots, -⟩ := bind_eq_ok_iff.1 hvs
    exact areWholeEntries_of_fillEntries hfs hslots
  · split at h
    · obtain ⟨n, -, h⟩ := Decoder.inside_eq_ok_iff.1 h
      obtain ⟨vs, hvs, -⟩ := map_eq_ok_iff.1 h
      exact areWhole_of_fromItems hfs hvs
    · exact absurd h Decoder.mismatch_ne_ok
  · rfl
  · exact absurd h Decoder.mismatch_ne_ok

end Fields

end ScriptRunner
