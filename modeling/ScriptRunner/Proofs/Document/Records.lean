import Mathlib.Data.List.Forall2
import ScriptRunner.Proofs.Document.Outcomes

/-!
# How records are decoded

Two statements about the fields of any record. A record that decodes has in each field a value that was decoded as that
field or that the field has when it is not written (`Fields.exists_of_decoder`). A record that is written with all its
fields in declaration order is decoded field after field (`Fields.fromEntries_eq_inOrder`).
-/

namespace ScriptRunner

variable {σ : Type} {α β : Type} {αs : List Type}

/-! ## Where the values of a record come from -/

/-- The field can come out with the value. -/
def Field.Yields (f : Field σ α) (a : α) : Prop :=
  (∃ p d, f.decode p d = .ok a) ∨ f.absent = some a ∨ f.absentInSequence = some a

namespace Fields

/-- Each field can come out with its value. -/
def Yield : {αs : List Type} → Fields σ αs → Values αs → Prop
  | _, .done, _ => True
  | _, .more f rest, (a, vs) => f.Yields a ∧ rest.Yield vs

/-- Each field can come out with the value that its slot holds, if it holds one. -/
def SlotsYield : {αs : List Type} → Fields σ αs → Slots αs → Prop
  | _, .done, _ => True
  | _, .more f rest, (slot, slots) => (∀ a ∈ slot, f.Yields a) ∧ rest.SlotsYield slots

theorem slotsYield_noSlots : ∀ {αs : List Type} (fs : Fields σ αs), fs.SlotsYield fs.noSlots
  | _, .done => trivial
  | _, .more _ rest => ⟨nofun, rest.slotsYield_noSlots⟩

theorem slotsYield_fill? {p : Place} {key : String} {value : Document σ} :
    ∀ {αs : List Type} {fs : Fields σ αs} {slots slots' : Slots αs}, fs.SlotsYield slots →
      fs.fill? p key value slots = some (.ok slots') → fs.SlotsYield slots'
  | _, .done, _, _, _, h => by cases h
  | _, .more f rest, (slot, slots), slots', hs, h => by
    simp only [fill?] at h
    split at h
    · cases slot with
      | some a => cases h
      | none =>
        obtain ⟨a, ha, rfl⟩ := map_eq_ok_iff.1 (Option.some.inj h)
        refine ⟨?_, hs.2⟩
        rintro _ ⟨⟩
        exact .inl ⟨_, _, ha⟩
    · obtain ⟨r, hr, he⟩ := Option.map_eq_some_iff.1 h
      obtain ⟨slots'', rfl, rfl⟩ := map_eq_ok_iff.1 he
      exact ⟨hs.1, slotsYield_fill? hs.2 hr⟩

theorem slotsYield_fillEntries [Format σ] {p : Place} {fs : Fields σ αs} {es : List (Document σ × Document σ)}
    {slots slots' : Slots αs} (hs : fs.SlotsYield slots) (h : fs.fillEntries p es slots = .ok slots') :
    fs.SlotsYield slots' := by
  induction es generalizing slots with
  | nil =>
    obtain rfl := Except.ok.inj h
    exact hs
  | cons e es ih =>
    obtain ⟨name, -, h⟩ := bind_eq_ok_iff.1 h
    split at h
    · rename_i r hr
      obtain ⟨slots'', rfl, h⟩ := bind_eq_ok_iff.1 h
      exact ih (slotsYield_fill? hs hr) h
    · split at h
      · exact ih hs h
      · cases h

theorem yield_settle : ∀ {αs : List Type} {fs : Fields σ αs} {slots : Slots αs} {vs : Values αs}, fs.SlotsYield slots →
    fs.settle slots = .ok vs → fs.Yield vs
  | _, .done, _, _, _, _ => trivial
  | _, .more f rest, (slot, slots), vs, hs, h => by
    simp only [settle] at h
    split at h
    · rename_i a ha
      obtain ⟨vs', hvs, rfl⟩ := map_eq_ok_iff.1 h
      refine ⟨?_, yield_settle hs.2 hvs⟩
      cases slot with
      | none => exact .inr (.inl ha)
      | some b =>
        obtain rfl := Option.some.inj ha
        exact hs.1 _ rfl
    · cases h

theorem yield_fromItems {p : Place} : ∀ {αs : List Type} {fs : Fields σ αs} {i : Nat} {ds : List (Document σ)}
    {vs : Values αs}, fs.fromItems p i ds = .ok vs → fs.Yield vs
  | _, .done, _, _, _, _ => trivial
  | _, .more f rest, i, [], vs, h => by
    simp only [fromItems] at h
    split at h
    · rename_i a ha
      obtain ⟨vs', hvs, rfl⟩ := map_eq_ok_iff.1 h
      exact ⟨.inr (.inr ha), yield_fromItems hvs⟩
    · cases h
  | _, .more f rest, i, d :: ds, vs, h => by
    obtain ⟨a, ha, h⟩ := bind_eq_ok_iff.1 h
    obtain ⟨vs', hvs, rfl⟩ := map_eq_ok_iff.1 h
    exact ⟨.inl ⟨_, _, ha⟩, yield_fromItems hvs⟩

section Filling

variable {p : Place} {name : String} {d : Document σ} {f : Field σ α} {rest : Fields σ αs} {slot : Option α}
variable {slots : Slots αs}

theorem fill?_self : (Fields.more f rest).fill? p f.name d ((none, slots) : Option α × Slots αs) =
    some ((f.decode (p.under (.field f.name)) d).map fun a => ((some a, slots) : Option α × Slots αs)) := by
  rw [fill?, if_pos rfl]
  rfl

theorem fill?_of_ne (h : f.name ≠ name) : (Fields.more f rest).fill? p name d ((slot, slots) : Option α × Slots αs) =
    (rest.fill? p name d slots).map fun r => r.map fun s => ((slot, s) : Option α × Slots αs) := by
  show (if f.name = name then _ else _) = _
  exact if_neg h

end Filling

/-- The fields decoded one after the other, each from its own document. -/
def inOrder (p : Place) : {αs : List Type} → Fields σ αs → List (Document σ) → Except Failure (Values αs)
  | _, .done, _ => .ok ()
  | _, .more f rest, ds => do
    let a ← f.decode (p.under (.field f.name)) (ds.headD .damaged)
    (rest.inOrder p ds.tail).map fun vs => (a, vs)

variable [Format σ]

theorem yield_fromEntries {p : Place} {fs : Fields σ αs} {es : List (Document σ × Document σ)} {vs : Values αs}
    (h : fs.fromEntries p es = .ok vs) : fs.Yield vs := by
  obtain ⟨slots, hslots, h⟩ := bind_eq_ok_iff.1 h
  exact yield_settle (slotsYield_fillEntries fs.slotsYield_noSlots hslots) h

/-- **What a decoded record is made of**, whichever way it is written. -/
theorem exists_of_decoder {fs : Fields σ αs} {want : String} {build : Values αs → α} {p : Place} {d : Document σ}
    {a : α} (h : fs.decoder want build p d = .ok a) : ∃ vs, fs.Yield vs ∧ build vs = a := by
  unfold decoder at h
  split at h
  · obtain ⟨n, -, h⟩ := Decoder.inside_eq_ok_iff.1 h
    obtain ⟨vs, hvs, he⟩ := map_eq_ok_iff.1 h
    exact ⟨vs, yield_fromEntries hvs, he⟩
  · split at h
    · obtain ⟨n, -, h⟩ := Decoder.inside_eq_ok_iff.1 h
      obtain ⟨vs, hvs, he⟩ := map_eq_ok_iff.1 h
      exact ⟨vs, yield_fromItems hvs, he⟩
    · exact absurd h Decoder.mismatch_ne_ok
  · split at h
    · obtain ⟨vs, hvs, he⟩ := map_eq_ok_iff.1 (mapError_eq_ok_iff.1 h)
      exact ⟨vs, yield_fromEntries hvs, he⟩
    · exact absurd h Decoder.mismatch_ne_ok
  · exact absurd h Decoder.mismatch_ne_ok

/-! ## Records written in declaration order -/

def names : {αs : List Type} → Fields σ αs → List String
  | _, .done => []
  | _, .more f rest => f.name :: rest.names

/-- The keys of the entries are the given names. -/
def Keyed (p : Place) (names : List String) (es : List (Document σ × Document σ)) : Prop :=
  List.Forall₂ (fun name e => key p e.1 = .ok name) names es

section Steps

variable {p : Place} {name : String} {k d : Document σ} {es : List (Document σ × Document σ)} {f : Field σ α}
variable {rest : Fields σ αs} {slot : Option α} {slots : Slots αs}

theorem fillEntries_of_fill? {fs : Fields σ αs} {r : Except Failure (Slots αs)} (hname : key p k = .ok name)
    (hr : fs.fill? p name d slots = some r) : fs.fillEntries p ((k, d) :: es) slots = r >>= fs.fillEntries p es := by
  simp only [fillEntries, hname, bind, Except.bind, hr]

theorem fillEntries_of_unknown {fs : Fields σ αs} (hname : key p k = .ok name)
    (hr : fs.fill? p name d slots = none) : fs.fillEntries p ((k, d) :: es) slots =
      if d.isWhole then fs.fillEntries p es slots else .error ⟨.malformed, none⟩ := by
  simp only [fillEntries, hname, bind, Except.bind, hr]

/-- Entries under other names leave a field alone. -/
theorem fillEntries_more {ns : List String} (hk : Keyed p ns es) (hn : f.name ∉ ns) :
    (Fields.more f rest).fillEntries p es ((slot, slots) : Option α × Slots αs) =
      (rest.fillEntries p es slots).map fun s => ((slot, s) : Option α × Slots αs) := by
  induction hk generalizing slots with
  | nil => rfl
  | @cons name e ns es hname _ ih =>
    obtain ⟨k, d⟩ := e
    have hne : f.name ≠ name := fun he => hn (he ▸ List.mem_cons_self)
    have hrest := fun s => @ih s fun hm => hn (List.mem_cons_of_mem _ hm)
    have hfill : (Fields.more f rest).fill? p name d ((slot, slots) : Option α × Slots αs) = _ := fill?_of_ne hne
    cases hr : rest.fill? p name d slots with
    | none =>
      rw [hr] at hfill
      rw [fillEntries_of_unknown hname hfill, fillEntries_of_unknown hname hr]
      split
      · exact hrest slots
      · rfl
    | some r =>
      rw [hr] at hfill
      rw [fillEntries_of_fill? hname hfill, fillEntries_of_fill? hname hr]
      cases r with
      | error e => rfl
      | ok slots' => exact hrest slots'

end Steps

/-- **A record written in declaration order** is decoded field after field. -/
theorem fromEntries_eq_inOrder {p : Place} : ∀ {αs : List Type} {fs : Fields σ αs}
    {es : List (Document σ × Document σ)}, fs.names.Nodup → Keyed p fs.names es →
      fs.fromEntries p es = fs.inOrder p (es.map Prod.snd)
  | _, .done, [], _, _ => rfl
  | _, .more f rest, (k, d) :: es, hn, hk => by
    obtain ⟨hf, hn⟩ := List.nodup_cons.1 hn
    obtain ⟨hname, hk⟩ := List.forall₂_cons.1 hk
    have ih := fromEntries_eq_inOrder hn hk
    unfold fromEntries at ih
    rw [fromEntries, noSlots, fillEntries_of_fill? hname fill?_self, inOrder, List.map_cons, List.headD_cons,
      List.tail_cons, ← ih]
    cases f.decode (p.under (.field f.name)) d with
    | error e => rfl
    | ok a =>
      show ((Fields.more f rest).fillEntries p es (some a, rest.noSlots) >>= (Fields.more f rest).settle) = _
      rw [fillEntries_more hk hf]
      cases rest.fillEntries p es rest.noSlots with
      | error e => rfl
      | ok slots => rfl

end Fields

end ScriptRunner
