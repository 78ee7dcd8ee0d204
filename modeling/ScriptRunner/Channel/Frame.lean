import ScriptRunner.Task.Header

/-!
# The frames of a handoff

A process gets its job as two frames: the header of the run, then the compiled program with its payload in base64. The
member `type` tells them apart and may stand anywhere among the others; all members are read as plain values before
those of the frame are decoded.
-/

namespace ScriptRunner

inductive HandoffFrame where
  | header (header : Header)
  | bytecode (engine payload : String)

namespace HandoffFrame

inductive Tag where
  | header
  | bytecode
  deriving DecidableEq, Repr

def Tag.name : Tag → String
  | .header => "header"
  | .bytecode => "bytecode"

def json : HandoffFrame → Json
  | .header h =>
    match h.json with
    | .object ms => .object (("type", .string Tag.header.name) :: ms)
    | v => v
  | .bytecode engine payload =>
    .object [("type", .string Tag.bytecode.name), ("engine", .string engine), ("payload", .string payload)]

variable {σ : Type} [Format σ]

def tag : Decoder σ Tag := fun p doc => do
  let name ← Decoder.ofScalar "variant identifier" tagText p doc
  match [Tag.header, Tag.bytecode].find? fun t => t.name == name with
  | some t => .ok t
  | none => .error ⟨.unknownVariant name [Tag.header.name, Tag.bytecode.name], some p.path⟩
where
  /-- The text of a scalar that has one. -/
  tagText (s : σ) : Except Cause String :=
    match (Format.string s : Except Cause String) with
    | .error (.invalidType got _) => .error (.invalidType got "variant identifier")
    | r => r

/-- The tag among the entries of a mapping, and the other entries. -/
def splitTag (p : Place) : Option Tag → List (Document σ × Document σ) →
    Except Failure (Tag × List (Document σ × Document σ))
  | some t, [] => .ok (t, [])
  | none, [] => .error ⟨.missingField "type", none⟩
  | found, (k, v) :: es => do
    let key ← Decoder.string p k
    if key = "type" then
      if found.isSome then .error ⟨.duplicateField "type", none⟩
      else splitTag p (some (← tag p v)) es
    else
      let _ ← Decoder.any p v
      let (t, rest) ← splitTag p found es
      .ok (t, (k, v) :: rest)

def bytecodeDecoder : Decoder σ HandoffFrame :=
  Fields.decoder
    (.more (.required "engine" Decoder.string) <| .more (.required "payload" Decoder.string) .done)
    "struct variant HandoffFrame::Bytecode"
    fun (engine, payload, ()) => .bytecode engine payload

/-- The frame of a kind whose tag has been taken off. -/
def untagged : Tag → Decoder σ HandoffFrame
  | .header => Header.decoder.map .header
  | .bytecode => bytecodeDecoder

def decoder : Decoder σ HandoffFrame := fun p doc =>
  match doc with
  | .mapping es => do
    let (t, rest) ← Decoder.inside p fun p => splitTag p none es
    untagged t p (.mapping rest)
  | .sequence [] => .error ⟨.missingField "type", none⟩
  | .sequence (d :: ds) => do
    let t ← Decoder.inside p fun p => do
      let t ← tag p d
      let _ ← Decoder.anyItems p 1 ds
      .ok t
    untagged t p (.sequence ds)
  | doc => Decoder.mismatch "internally tagged enum HandoffFrame" p doc

end HandoffFrame

end ScriptRunner
