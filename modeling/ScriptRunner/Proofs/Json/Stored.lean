import ScriptRunner.Json.Format
import ScriptRunner.Proofs.Dict
import ScriptRunner.Proofs.Document.Outcomes
import ScriptRunner.Proofs.Json.Printed

/-!
# Values that are passed on as they are

A value that was decoded as a value of any type is stored in one form: its whole numbers fit 64 bits, and its objects
have their keys in order, each once (`stored_of_any`). Such a value is the value of its own text (`any_written`) if its
numbers read back and if it is no deeper than there is room; a deeper one is refused (`depth_le_of_any`), and one with
another number becomes another value (`any_written_eq_ok_iff`).
-/

namespace ScriptRunner

namespace Json

/-! ## The stored form -/

mutual

/-- The form in which a value of any type is stored. -/
def Stored : Json → Prop
  | .int n => Fits n
  | .array items => StoredItems items
  | .object members => members.Pairwise (fun a b => a.1 < b.1) ∧ StoredMembers members
  | _ => True

def StoredItems : List Json → Prop
  | [] => True
  | a :: as => Stored a ∧ StoredItems as

def StoredMembers : List (String × Json) → Prop
  | [] => True
  | (_, a) :: as => Stored a ∧ StoredMembers as

end

theorem storedMembers_iff {ms : List (String × Json)} : StoredMembers ms ↔ ∀ m ∈ ms, Stored m.2 := by
  induction ms with
  | nil => exact ⟨fun _ => nofun, fun _ => trivial⟩
  | cons m ms ih =>
    obtain ⟨k, a⟩ := m
    rw [StoredMembers, ih, List.forall_mem_cons]

theorem depthMembers_le_iff {ms : List (String × Json)} {n : Nat} : depthMembers ms ≤ n ↔ ∀ m ∈ ms, m.2.depth ≤ n := by
  induction ms with
  | nil => exact ⟨fun _ => nofun, fun _ => Nat.zero_le n⟩
  | cons m ms ih =>
    obtain ⟨k, a⟩ := m
    rw [depthMembers, Nat.max_le, ih, List.forall_mem_cons]

theorem depthItems_le_iff {as : List Json} {n : Nat} : depthItems as ≤ n ↔ ∀ a ∈ as, a.depth ≤ n := by
  induction as with
  | nil => exact ⟨fun _ => nofun, fun _ => Nat.zero_le n⟩
  | cons a as ih => rw [depthItems, Nat.max_le, ih, List.forall_mem_cons]

theorem stored_ofMembers {ms : List (String × Json)} (h : StoredMembers ms) : Stored (ofMembers ms) :=
  ⟨(Dict.ofList ms).ordered, storedMembers_iff.2 fun m hm => storedMembers_iff.1 h m (Dict.mem_of_mem_ofList hm)⟩

theorem stored_of_value {s : Scalar} {v : Json} (h : Format.value s = .ok v) : Stored v := by
  obtain ⟨a, ha, rfl⟩ := map_eq_ok_iff.1 h
  cases s with
  | null => cases ha; trivial
  | bool b => cases ha; trivial
  | string cs =>
    cases cs with
    | none => cases ha
    | some cs => cases ha; trivial
  | number x =>
    simp only [Scalar.atom] at ha
    split at ha
    · rename_i n hn
      cases ha
      exact Numeral.fits_of_value? hn
    · cases ha
      trivial
    · cases ha

mutual

/-- **Whatever is decoded as a value of any type is stored.** -/
theorem stored_of_any : ∀ {p : Place} {d : Written} {v : Json}, Decoder.any p d = .ok v → Stored v
  | p, .scalar s, v, h => stored_of_value (Decoder.atPlace_eq_ok_iff.1 h)
  | p, .sequence items, v, h => by
    obtain ⟨n, -, h⟩ := Decoder.inside_eq_ok_iff.1 h
    obtain ⟨as, has, rfl⟩ := map_eq_ok_iff.1 h
    exact storedItems_of_anyItems has
  | p, .mapping es, v, h => by
    obtain ⟨n, -, h⟩ := Decoder.inside_eq_ok_iff.1 h
    obtain ⟨ms, hms, rfl⟩ := map_eq_ok_iff.1 h
    exact stored_ofMembers (storedMembers_of_anyEntries hms)
  | p, .damaged, v, h => by cases h

theorem storedItems_of_anyItems : ∀ {p : Place} {i : Nat} {ds : List Written} {as : List Json},
    Decoder.anyItems p i ds = .ok as → StoredItems as
  | p, i, [], as, h => by
    cases h
    trivial
  | p, i, d :: ds, as, h => by
    obtain ⟨a, ha, h⟩ := bind_eq_ok_iff.1 h
    obtain ⟨bs, hbs, h⟩ := bind_eq_ok_iff.1 h
    cases h
    exact ⟨stored_of_any ha, storedItems_of_anyItems hbs⟩

theorem storedMembers_of_anyEntries : ∀ {p : Place} {es : List (Written × Written)} {ms : List (String × Json)},
    Decoder.anyEntries p es = .ok ms → StoredMembers ms
  | p, [], ms, h => by
    cases h
    trivial
  | p, (k, d) :: es, ms, h => by
    obtain ⟨key, -, h⟩ := bind_eq_ok_iff.1 h
    obtain ⟨a, ha, h⟩ := bind_eq_ok_iff.1 h
    obtain ⟨ns, hns, h⟩ := bind_eq_ok_iff.1 h
    cases h
    exact ⟨stored_of_any ha, storedMembers_of_anyEntries hns⟩

end

/-! ## Numbers that read back -/

mutual

/-- The binary64 numbers in a value. -/
def floats : Json → List Binary64
  | .float x => [x]
  | .array items => itemFloats items
  | .object members => memberFloats members
  | _ => []

def itemFloats : List Json → List Binary64
  | [] => []
  | a :: as => floats a ++ itemFloats as

def memberFloats : List (String × Json) → List Binary64
  | [] => []
  | (_, a) :: as => floats a ++ memberFloats as

end

/-- The text of the number denotes the number. -/
def ReadsBack (x : Binary64) : Prop := parse? (compact (.float x)) = some (.float x)

/-- A typed value from compact text is decoded from the document of the value. -/
theorem decodeChars_chars {α : Type} (d : Decoder Scalar α) (v : Json) :
    decodeChars d (chars v) = (written v).decode d := by
  rw [decodeChars, read_chars]
  cases (written v).decode d <;> rfl

theorem any_scalar {p : Place} {s : Scalar} {a : Atom} (h : s.atom = .ok a) :
    Decoder.any p (.scalar s) = .ok a.json := by
  show Decoder.atPlace p (s.atom.map Atom.json) = _
  rw [h]
  rfl

theorem readsBack_iff {x : Binary64} : ReadsBack x ↔ (Numeral.ofFloat x).value? = some (.float x) := by
  have hparse : parse? (compact (.float x)) =
      (Decoder.any ⟨[], 127⟩ (.scalar (Scalar.number (.ofFloat x)))).toOption := by
    rw [parse?, decodeText, compact, String.toList_ofList, decodeChars_chars]
    rfl
  rw [ReadsBack, hparse]
  constructor
  · intro h
    cases hany : Decoder.any ⟨[], 127⟩ (.scalar (Scalar.number (.ofFloat x))) with
    | error f =>
      rw [hany] at h
      cases h
    | ok v =>
      rw [hany] at h
      obtain rfl : v = .float x := Option.some.inj h
      obtain ⟨a, ha, he⟩ := map_eq_ok_iff.1 (Decoder.atPlace_eq_ok_iff.1 hany)
      simp only [Scalar.atom] at ha
      split at ha
      · cases ha
        cases he
      · rename_i hx
        cases ha
        rw [hx, ← Json.float.inj he]
      · cases ha
  · intro h
    rw [any_scalar (a := .float x) (by rw [Scalar.atom, h])]
    rfl

instance : DecidablePred ReadsBack := fun x =>
  decidable_of_iff (((Numeral.ofFloat x).value?.any (same (.float x))) = true) <| by
    rw [readsBack_iff, Option.any_eq_true]
    constructor
    · rintro ⟨v, hv, hsame⟩
      cases v <;> simp_all [same]
    · exact fun h => ⟨_, h, by simp [same]⟩

theorem atom_string (s : String) : (Scalar.string (some s.toList)).atom = .ok (.string s) := by
  rw [Scalar.atom, String.ofList_toList]

theorem string_written (p : Place) (s : String) :
    Decoder.string p (.scalar (Scalar.string (some s.toList))) = .ok s := by
  show Decoder.atPlace p ((Scalar.string (some s.toList)).atom >>= Atom.asString) = _
  rw [atom_string]
  rfl

/-! ## Stored values and their text -/

mutual

/-- **A stored value is the value of its own text** if its numbers read back and there is room for it. -/
theorem any_written : ∀ {p : Place} {v : Json}, Stored v → (∀ x ∈ v.floats, ReadsBack x) → v.depth ≤ p.room →
    Decoder.any p (written v) = .ok v
  | p, .null, _, _, _ => rfl
  | p, .bool b, _, _, _ => rfl
  | p, .int n, hs, _, _ => any_scalar (a := .int n) (by rw [Scalar.atom, Numeral.value?_ofInt hs])
  | p, .float x, _, hf, _ => any_scalar (a := .float x) (by rw [Scalar.atom, readsBack_iff.1 (hf x List.mem_cons_self)])
  | p, .string s, _, _, _ => any_scalar (atom_string s)
  | p, .array items, hs, hf, hd => by
    obtain ⟨n, hn⟩ : ∃ n, p.room = n + 1 := ⟨p.room - 1, by rw [depth] at hd; omega⟩
    refine Decoder.inside_eq_ok_iff.2 ⟨n, hn, map_eq_ok_iff.2 ⟨items, anyItems_written hs hf ?_, rfl⟩⟩
    rw [depth, hn] at hd
    exact Nat.le_of_succ_le_succ hd
  | p, .object members, hs, hf, hd => by
    obtain ⟨n, hn⟩ : ∃ n, p.room = n + 1 := ⟨p.room - 1, by rw [depth] at hd; omega⟩
    refine Decoder.inside_eq_ok_iff.2 ⟨n, hn, map_eq_ok_iff.2 ⟨members, anyEntries_written hs.2 hf ?_, ?_⟩⟩
    · rw [depth, hn] at hd
      exact Nat.le_of_succ_le_succ hd
    · rw [ofMembers, Dict.entries_ofList hs.1]

theorem anyItems_written : ∀ {p : Place} {i : Nat} {as : List Json}, StoredItems as →
    (∀ x ∈ itemFloats as, ReadsBack x) → depthItems as ≤ p.room → Decoder.anyItems p i (writtenItems as) = .ok as
  | p, i, [], _, _, _ => rfl
  | p, i, a :: as, hs, hf, hd => by
    have hfa := fun x hx => hf x (List.mem_append_left _ hx)
    have hfas := fun x hx => hf x (List.mem_append_right _ hx)
    have ha := any_written (p := p.under (.item i)) hs.1 hfa (Nat.le_trans (Nat.le_max_left ..) hd)
    have has := anyItems_written (i := i + 1) hs.2 hfas (Nat.le_trans (Nat.le_max_right ..) hd)
    exact bind_eq_ok_iff.2 ⟨a, ha, bind_eq_ok_iff.2 ⟨as, has, rfl⟩⟩

theorem anyEntries_written : ∀ {p : Place} {ms : List (String × Json)}, StoredMembers ms →
    (∀ x ∈ memberFloats ms, ReadsBack x) → depthMembers ms ≤ p.room →
    Decoder.anyEntries p (writtenMembers ms) = .ok ms
  | p, [], _, _, _ => rfl
  | p, (k, a) :: ms, hs, hf, hd => by
    have hfa := fun x hx => hf x (List.mem_append_left _ hx)
    have hfms := fun x hx => hf x (List.mem_append_right _ hx)
    have ha := fun s => any_written (p := p.under s) hs.1 hfa (Nat.le_trans (Nat.le_max_left ..) hd)
    have hms := anyEntries_written hs.2 hfms (Nat.le_trans (Nat.le_max_right ..) hd)
    exact bind_eq_ok_iff.2 ⟨k, string_written p k, bind_eq_ok_iff.2 ⟨a, ha _, bind_eq_ok_iff.2 ⟨ms, hms, rfl⟩⟩⟩

end

mutual

/-- A value that decodes has room. -/
theorem depth_le_of_any : ∀ {p : Place} {v w : Json}, Decoder.any p (written v) = .ok w → v.depth ≤ p.room
  | p, .null, _, _ => Nat.zero_le _
  | p, .bool _, _, _ => Nat.zero_le _
  | p, .int _, _, _ => Nat.zero_le _
  | p, .float _, _, _ => Nat.zero_le _
  | p, .string _, _, _ => Nat.zero_le _
  | p, .array items, w, h => by
    obtain ⟨n, hn, h⟩ := Decoder.inside_eq_ok_iff.1 h
    obtain ⟨as, has, -⟩ := map_eq_ok_iff.1 h
    rw [depth, hn]
    exact Nat.succ_le_succ (depth_le_of_anyItems has)
  | p, .object members, w, h => by
    obtain ⟨n, hn, h⟩ := Decoder.inside_eq_ok_iff.1 h
    obtain ⟨ms, hms, -⟩ := map_eq_ok_iff.1 h
    rw [depth, hn]
    exact Nat.succ_le_succ (depth_le_of_anyEntries hms)

theorem depth_le_of_anyItems : ∀ {p : Place} {i : Nat} {as bs : List Json},
    Decoder.anyItems p i (writtenItems as) = .ok bs → depthItems as ≤ p.room
  | p, i, [], _, _ => Nat.zero_le _
  | p, i, a :: as, _, h => by
    obtain ⟨b, hb, h⟩ := bind_eq_ok_iff.1 h
    obtain ⟨bs, hbs, -⟩ := bind_eq_ok_iff.1 h
    exact Nat.max_le.2 ⟨depth_le_of_any (p := p.under (.item i)) hb, depth_le_of_anyItems hbs⟩

theorem depth_le_of_anyEntries : ∀ {p : Place} {ms ns : List (String × Json)},
    Decoder.anyEntries p (writtenMembers ms) = .ok ns → depthMembers ms ≤ p.room
  | p, [], _, _ => Nat.zero_le _
  | p, (k, a) :: ms, _, h => by
    obtain ⟨key, -, h⟩ := bind_eq_ok_iff.1 h
    obtain ⟨b, hb, h⟩ := bind_eq_ok_iff.1 h
    obtain ⟨ns, hns, -⟩ := bind_eq_ok_iff.1 h
    exact Nat.max_le.2 ⟨depth_le_of_any (p := p.under _) hb, depth_le_of_anyEntries hns⟩

end

/-- Members keep their keys. -/
theorem keys_of_anyEntries {p : Place} {ms ns : List (String × Json)}
    (h : Decoder.anyEntries p (writtenMembers ms) = .ok ns) : ns.map Prod.fst = ms.map Prod.fst := by
  induction ms generalizing ns with
  | nil =>
    obtain rfl := Except.ok.inj h
    rfl
  | cons m ms ih =>
    obtain ⟨k, a⟩ := m
    obtain ⟨key, hkey, h⟩ := bind_eq_ok_iff.1 h
    obtain ⟨b, -, h⟩ := bind_eq_ok_iff.1 h
    obtain ⟨bs, hbs, h⟩ := bind_eq_ok_iff.1 h
    obtain rfl := Except.ok.inj h
    obtain rfl := Except.ok.inj ((string_written p k).symm.trans hkey)
    rw [List.map_cons, List.map_cons, ih hbs]

/-- Members in order stay in order when their values are read anew. -/
theorem ofMembers_of_anyEntries {p : Place} {ms ns : List (String × Json)} (ho : ms.Pairwise fun a b => a.1 < b.1)
    (h : Decoder.anyEntries p (writtenMembers ms) = .ok ns) : ofMembers ns = .object ns := by
  have hkeys := List.pairwise_map.2 ho
  rw [← keys_of_anyEntries h] at hkeys
  rw [ofMembers, Dict.entries_ofList (List.pairwise_map.1 hkeys)]

mutual

/-- A stored value that is the value of its own text has numbers that read back. -/
theorem readsBack_of_any : ∀ {p : Place} {v : Json}, Stored v → Decoder.any p (written v) = .ok v →
    ∀ x ∈ v.floats, ReadsBack x
  | p, .null, _, _, _, hx => by cases hx
  | p, .bool _, _, _, _, hx => by cases hx
  | p, .int _, _, _, _, hx => by cases hx
  | p, .string _, _, _, _, hx => by cases hx
  | p, .float y, _, h, x, hx => by
    obtain rfl := List.mem_singleton.1 hx
    obtain ⟨a, ha, he⟩ := map_eq_ok_iff.1 (Decoder.atPlace_eq_ok_iff.1 h)
    refine readsBack_iff.2 ?_
    simp only [Scalar.atom] at ha
    split at ha
    · obtain rfl := Except.ok.inj ha
      cases he
    · rename_i y hy
      obtain rfl := Except.ok.inj ha
      rw [hy, show y = x from Json.float.inj he]
    · cases ha
  | p, .array items, hs, h, x, hx => by
    obtain ⟨n, -, h⟩ := Decoder.inside_eq_ok_iff.1 h
    obtain ⟨as, has, he⟩ := map_eq_ok_iff.1 h
    rw [Json.array.inj he] at has
    exact readsBack_of_anyItems hs has x hx
  | p, .object members, hs, h, x, hx => by
    obtain ⟨n, -, h⟩ := Decoder.inside_eq_ok_iff.1 h
    obtain ⟨ms, hms, he⟩ := map_eq_ok_iff.1 h
    rw [ofMembers_of_anyEntries hs.1 hms] at he
    rw [Json.object.inj he] at hms
    exact readsBack_of_anyEntries hs.2 hms x hx

theorem readsBack_of_anyItems : ∀ {p : Place} {i : Nat} {as : List Json}, StoredItems as →
    Decoder.anyItems p i (writtenItems as) = .ok as → ∀ x ∈ itemFloats as, ReadsBack x
  | p, i, [], _, _, _, hx => by cases hx
  | p, i, a :: as, hs, h, x, hx => by
    obtain ⟨b, hb, h⟩ := bind_eq_ok_iff.1 h
    obtain ⟨bs, hbs, h⟩ := bind_eq_ok_iff.1 h
    obtain ⟨hhead, htail⟩ := List.cons.inj (Except.ok.inj h)
    rw [hhead] at hb
    rw [htail] at hbs
    rcases List.mem_append.1 hx with hx | hx
    · exact readsBack_of_any hs.1 hb x hx
    · exact readsBack_of_anyItems hs.2 hbs x hx

theorem readsBack_of_anyEntries : ∀ {p : Place} {ms : List (String × Json)}, StoredMembers ms →
    Decoder.anyEntries p (writtenMembers ms) = .ok ms → ∀ x ∈ memberFloats ms, ReadsBack x
  | p, [], _, _, _, hx => by cases hx
  | p, (k, a) :: ms, hs, h, x, hx => by
    obtain ⟨key, -, h⟩ := bind_eq_ok_iff.1 h
    obtain ⟨b, hb, h⟩ := bind_eq_ok_iff.1 h
    obtain ⟨bs, hbs, h⟩ := bind_eq_ok_iff.1 h
    obtain ⟨hhead, htail⟩ := List.cons.inj (Except.ok.inj h)
    rw [(Prod.mk.inj hhead).2] at hb
    rw [htail] at hbs
    rcases List.mem_append.1 hx with hx | hx
    · exact readsBack_of_any (p := p.under _) hs.1 hb x hx
    · exact readsBack_of_anyEntries hs.2 hbs x hx

end

/-- **Which stored values come back**: those that are not too deep and whose numbers read back. -/
theorem any_written_eq_ok_iff {p : Place} {v : Json} (hs : Stored v) :
    Decoder.any p (written v) = .ok v ↔ v.depth ≤ p.room ∧ ∀ x ∈ v.floats, ReadsBack x :=
  ⟨fun h => ⟨depth_le_of_any h, readsBack_of_any hs h⟩, fun h => any_written hs h.2 h.1⟩

end Json

end ScriptRunner
