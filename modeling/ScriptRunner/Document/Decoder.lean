import ScriptRunner.Document.Basic

/-!
# Decoding typed values

A decoder reads a value of one type from a document at a place. Records are described by their fields in declaration
order: entries are decoded in the order of the text and unknown ones are skipped; fields that are not written are
settled afterwards, in declaration order.
-/

namespace ScriptRunner

/-- Where a decoder stands: the steps from the root and how many collections may still be entered. -/
structure Place where
  path : Path
  room : Nat

namespace Place

def under (p : Place) (s : Step) : Place :=
  { p with path := s :: p.path }

/-- The place inside a collection. -/
def enter (p : Place) : Except Failure Place :=
  match p.room with
  | 0 => .error ⟨.malformed, some p.path⟩
  | n + 1 => .ok { p with room := n }

end Place

abbrev Decoder (σ α : Type) := Place → Document σ → Except Failure α

namespace Decoder

variable {σ α β : Type} [Format σ]

/-- An outcome that fails at the given place. -/
def atPlace (p : Place) : Except Cause α → Except Failure α
  | .ok a => .ok a
  | .error c => .error ⟨c, some p.path⟩

/-- Works inside a collection, which also names the place of failures without one. -/
def inside (p : Place) (work : Place → Except Failure α) : Except Failure α :=
  (p.enter >>= work).mapError (Failure.locate p.path)

/-- Fails because another kind of value is wanted. -/
def mismatch (want : String) (p : Place) : Document σ → Except Failure α
  | .scalar s => atPlace p (Format.got s >>= fun got => .error (.invalidType got want))
  | .sequence _ => .error ⟨.invalidType .sequence want, some p.path⟩
  | .mapping _ => .error ⟨.invalidType .mapping want, some p.path⟩
  | .damaged => .error ⟨.malformed, some p.path⟩

def ofScalar (want : String) (read : σ → Except Cause α) : Decoder σ α := fun p d =>
  match d with
  | .scalar s => atPlace p (read s)
  | d => mismatch want p d

def string : Decoder σ String := ofScalar "a string" Format.string

def boolean : Decoder σ Bool := ofScalar "a boolean" Format.boolean

def integer (range : IntRange) : Decoder σ Int := ofScalar range.name (Format.integer range)

def map (f : α → β) (d : Decoder σ α) : Decoder σ β := fun p doc => (d p doc).map f

def uint16 : Decoder σ UInt16 := (integer .uint16).map fun n => UInt16.ofNat n.toNat
def uint32 : Decoder σ UInt32 := (integer .uint32).map fun n => UInt32.ofNat n.toNat
def uint64 : Decoder σ UInt64 := (integer .uint64).map fun n => UInt64.ofNat n.toNat
def usize : Decoder σ UInt64 := (integer .usize).map fun n => UInt64.ofNat n.toNat
def int64 : Decoder σ Int64 := (integer .int64).map Int64.ofInt

/-- A value that is worked out from another one; its failures have no place of their own. -/
def derived (d : Decoder σ α) (f : α → Except Cause β) : Decoder σ β := fun p doc => do
  match f (← d p doc) with
  | .ok b => .ok b
  | .error c => .error ⟨c, none⟩

/-- A value that may be absent. -/
def optional (d : Decoder σ α) : Decoder σ (Option α) := fun p doc =>
  match doc with
  | .scalar s => if Format.isAbsent s then .ok none else (d p doc).map some
  | doc => (d p doc).map some

/-- One of a few names. -/
def choice (choices : List (String × α)) : Decoder σ α := fun p doc => atPlace p do
  let names := choices.map Prod.fst
  let name ← Format.variant names doc
  match choices.find? fun c => c.1 == name with
  | some c => .ok c.2
  | none => .error (.unknownVariant name names)

def listItems (d : Decoder σ α) (p : Place) : Nat → List (Document σ) → Except Failure (List α)
  | _, [] => .ok []
  | i, doc :: docs => do
    let a ← d (p.under (.item i)) doc
    let as ← listItems d p (i + 1) docs
    .ok (a :: as)

def list (d : Decoder σ α) : Decoder σ (List α) := fun p doc =>
  match doc with
  | .sequence items => inside p fun p => listItems d p 0 items
  | .scalar s => if Format.isVoid s then .ok [] else mismatch "a sequence" p doc
  | doc => mismatch "a sequence" p doc

/-- The step to the value of an entry. -/
def stepTo : Document σ → Step
  | .scalar s => match (Format.string s : Except Cause String) with
    | .ok key => .field key
    | .error _ => .unnamed
  | _ => .unnamed

def entries (d : Decoder σ α) (p : Place) : List (Document σ × Document σ) → Except Failure (List (String × α))
  | [] => .ok []
  | (k, v) :: es => do
    let key ← string p k
    let a ← d (p.under (stepTo k)) v
    let as ← entries d p es
    .ok ((key, a) :: as)

def dict (d : Decoder σ α) : Decoder σ (Dict α) := fun p doc =>
  match doc with
  | .mapping es => inside p fun p => (entries d p es).map Dict.ofList
  | .scalar s => if Format.isVoid s then .ok .empty else mismatch "a map" p doc
  | doc => mismatch "a map" p doc

/-! ## Values of any type -/

mutual

/-- A value of any type, stored with the keys of its objects in order. -/
def any (p : Place) : Document σ → Except Failure Json
  | .scalar s => atPlace p (Format.value s)
  | .sequence items => inside p fun p => (anyItems p 0 items).map Json.array
  | .mapping es => inside p fun p => (anyEntries p es).map Json.ofMembers
  | .damaged => .error ⟨.malformed, some p.path⟩

def anyItems (p : Place) : Nat → List (Document σ) → Except Failure (List Json)
  | _, [] => .ok []
  | i, doc :: docs => do
    let a ← any (p.under (.item i)) doc
    let as ← anyItems p (i + 1) docs
    .ok (a :: as)

def anyEntries (p : Place) : List (Document σ × Document σ) → Except Failure (List (String × Json))
  | [] => .ok []
  | (k, v) :: es => do
    let key ← string p k
    let a ← any (p.under (stepTo k)) v
    let as ← anyEntries p es
    .ok ((key, a) :: as)

end

end Decoder

/-! ## Records -/

/-- One field of a record. -/
structure Field (σ α : Type) where
  name : String
  decode : Decoder σ α
  /-- The value of a field that is not written, unless it has to be. -/
  absent : Option α
  /-- The same for a record that is written as a sequence. -/
  absentInSequence : Option α

namespace Field

variable {σ α : Type}

/-- A field that has to be written. -/
def required (name : String) (decode : Decoder σ α) : Field σ α := ⟨name, decode, none, none⟩

/-- A field with a value for when it is not written. -/
def withDefault (name : String) (decode : Decoder σ α) (value : α) : Field σ α := ⟨name, decode, some value, some value⟩

/-- A field whose absence is a value, though a sequence has to hold its place. -/
def optional [Format σ] (name : String) (decode : Decoder σ α) : Field σ (Option α) :=
  ⟨name, Decoder.optional decode, some none, none⟩

end Field

/-- The fields of a record in declaration order. -/
inductive Fields (σ : Type) : List Type → Type 1 where
  | done : Fields σ []
  | more {α : Type} {αs : List Type} (field : Field σ α) (rest : Fields σ αs) : Fields σ (α :: αs)

/-- What has been read of each field. -/
def Slots : List Type → Type
  | [] => Unit
  | α :: αs => Option α × Slots αs

/-- A value for each field. -/
def Values : List Type → Type
  | [] => Unit
  | α :: αs => α × Values αs

namespace Fields

variable {σ : Type}

def noSlots : {αs : List Type} → Fields σ αs → Slots αs
  | _, .done => ()
  | _, .more _ rest => (none, rest.noSlots)

/-- Decodes the value of an entry into the slot of its field, if there is such a field. -/
def fill? (p : Place) (key : String) (value : Document σ) : {αs : List Type} → Fields σ αs → Slots αs →
    Option (Except Failure (Slots αs))
  | _, .done, _ => none
  | _, .more f rest, (slot, slots) =>
    if f.name = key then
      match slot with
      | some _ => some (.error ⟨.duplicateField key, none⟩)
      | none => some ((f.decode (p.under (.field key)) value).map fun a => (some a, slots))
    else (rest.fill? p key value slots).map fun r => r.map fun slots => (slot, slots)

/-- Settles the fields that were not written. -/
def settle : {αs : List Type} → Fields σ αs → Slots αs → Except Failure (Values αs)
  | _, .done, _ => .ok ()
  | _, .more f rest, (slot, slots) =>
    match slot <|> f.absent with
    | some a => (rest.settle slots).map fun vs => (a, vs)
    | none => .error ⟨.missingField f.name, none⟩

/-- The name of a field, read from the key of an entry. -/
def key [Format σ] : Decoder σ String := Decoder.ofScalar "field identifier" Format.string

def fillEntries [Format σ] (p : Place) {αs : List Type} (fs : Fields σ αs) :
    List (Document σ × Document σ) → Slots αs → Except Failure (Slots αs)
  | [], slots => .ok slots
  | (k, v) :: es, slots => do
    let name ← key p k
    match fs.fill? p name v slots with
    | some r => fillEntries p fs es (← r)
    | none => if v.isWhole then fillEntries p fs es slots else .error ⟨.malformed, none⟩

/-- The fields from the items of a sequence, of which none may be left over. -/
def fromItems (p : Place) : {αs : List Type} → Fields σ αs → Nat → List (Document σ) → Except Failure (Values αs)
  | _, .done, _, [] => .ok ()
  | _, .done, _, _ :: _ => .error ⟨.malformed, none⟩
  | _, .more f rest, i, [] =>
    match f.absentInSequence with
    | some a => (rest.fromItems p i []).map fun vs => (a, vs)
    | none => .error ⟨.tooShort, none⟩
  | _, .more f rest, i, doc :: docs => do
    let a ← f.decode (p.under (.item i)) doc
    (rest.fromItems p (i + 1) docs).map fun vs => (a, vs)

/-- The fields from the entries of a mapping. -/
def fromEntries [Format σ] (p : Place) {αs : List Type} (fs : Fields σ αs) (es : List (Document σ × Document σ)) :
    Except Failure (Values αs) := do
  fs.settle (← fs.fillEntries p es fs.noSlots)

/-- A record with the given fields. -/
def decoder [Format σ] {α : Type} {αs : List Type} (fs : Fields σ αs) (want : String) (build : Values αs → α) :
    Decoder σ α := fun p doc =>
  match doc with
  | .mapping es => Decoder.inside p fun p => (fs.fromEntries p es).map build
  | .sequence items =>
    if Format.recordsAsSequences σ then
      Decoder.inside p fun p => (fs.fromItems p 0 items).map build
    else Decoder.mismatch want p doc
  | .scalar s =>
    if Format.isVoid s then ((fs.fromEntries p []).map build).mapError (Failure.locate p.path)
    else Decoder.mismatch want p doc
  | doc => Decoder.mismatch want p doc

end Fields

/-- Reads a whole document. -/
def Document.decode {σ α : Type} [Format σ] (d : Decoder σ α) (doc : Document σ) : Except Failure α :=
  d ⟨[], Format.depthLimit σ⟩ doc

end ScriptRunner
