import ScriptRunner.Document.Decoder
import ScriptRunner.Json.Reader
import ScriptRunner.Text.Utf8

/-!
# Typed values from JSON

JSON text and stored JSON values answer alike when a typed value is asked of them, but for the wording when one of a few
names is wanted. A record may be written as an array of its fields.
-/

namespace ScriptRunner.Json

/-- A scalar of a stored value. -/
inductive Atom where
  | null
  | bool (value : Bool)
  | int (value : Int)
  | float (value : Binary64)
  | string (value : String)

namespace Atom

def json : Atom → Json
  | null => .null
  | bool b => .bool b
  | int n => .int n
  | float x => .float x
  | string s => .string s

def got : Atom → Got
  | null => .nothing "null"
  | bool b => .boolean b
  | int n => .integer n
  | float x => .float x.text
  | string s => .string s

def asString : Atom → Except Cause String
  | string s => .ok s
  | a => .error (.invalidType a.got "a string")

def asBoolean : Atom → Except Cause Bool
  | bool b => .ok b
  | a => .error (.invalidType a.got "a boolean")

def asInteger (range : IntRange) : Atom → Except Cause Int
  | int n => if range.contains n then .ok n else .error (.invalidValue (.integer n) range.name)
  | a => .error (.invalidType a.got range.name)

/-- The only value of an alternative that carries nothing. -/
def asNothing : Atom → Except Cause Unit
  | null => .ok ()
  | a => .error (.invalidType a.got "unit")

end Atom

namespace Scalar

/-- The stored form of a written scalar, if it has a meaning. -/
def atom : Scalar → Except Cause Atom
  | null => .ok .null
  | bool b => .ok (.bool b)
  | string (some cs) => .ok (.string (String.ofList cs))
  | string none => .error .malformed
  | number x =>
    match x.value? with
    | some (.int n) => .ok (.int n)
    | some (.float f) => .ok (.float f)
    | _ => .error .malformed

end Scalar

/-- The nothing that stands beside the name of an alternative. -/
def nothingBeside {σ : Type} (atom : σ → Except Cause Atom) : Document σ → Except Cause Unit
  | .scalar s => atom s >>= Atom.asNothing
  | .sequence _ => .error (.invalidType .sequence "unit")
  | .mapping _ => .error (.invalidType .mapping "unit")
  | .damaged => .error .malformed

/-- The name of an alternative from the key of an object with one member. -/
def soleKey {σ : Type} (atom : σ → Except Cause Atom) (names : List String) :
    List (Document σ × Document σ) → Except Cause String
  | (.scalar k, v) :: es => do
    let name ← match ← atom k with
      | .string s => .ok s
      | a => .error (.invalidType a.got "variant identifier")
    if names.contains name then nothingBeside atom v else .error (.unknownVariant name names)
    if es.isEmpty then .ok name else .error .malformed
  | _ => .error .malformed

/-- The name of an alternative in JSON text. -/
def writtenVariant (names : List String) : Document Scalar → Except Cause String
  | .scalar s => do
    match ← s.atom with
    | .string s => .ok s
    | _ => .error .malformed
  | .mapping es => soleKey Scalar.atom names es
  | _ => .error .malformed

/-- The name of an alternative in a stored value. -/
def storedVariant (names : List String) : Document Atom → Except Cause String
  | .scalar (.string s) => .ok s
  | .scalar a => .error (.invalidType a.got "string or map")
  | .mapping es =>
    if es.length = 1 then soleKey .ok names es
    else .error (.invalidValue .mapping "map with a single key")
  | .sequence _ => .error (.invalidType .sequence "string or map")
  | .damaged => .error .malformed

instance : Format Scalar where
  string s := s.atom >>= Atom.asString
  boolean s := s.atom >>= Atom.asBoolean
  integer range s := s.atom >>= Atom.asInteger range
  value s := s.atom.map Atom.json
  got s := s.atom.map Atom.got
  isAbsent s := s = .null
  isVoid _ := false
  variant := writtenVariant
  recordsAsSequences := true
  showsPath := false
  depthLimit := 127

instance : Format Atom where
  string := Atom.asString
  boolean := Atom.asBoolean
  integer := Atom.asInteger
  value a := .ok a.json
  got a := .ok a.got
  isAbsent a := match a with | .null => true | _ => false
  isVoid _ := false
  variant := storedVariant
  recordsAsSequences := true
  showsPath := false
  depthLimit := 127

mutual

/-- A stored value as a document. -/
def document : Json → Document Atom
  | .null => .scalar .null
  | .bool b => .scalar (.bool b)
  | .int n => .scalar (.int n)
  | .float x => .scalar (.float x)
  | .string s => .scalar (.string s)
  | .array items => .sequence (documents items)
  | .object members => .mapping (documentEntries members)

def documents : List Json → List (Document Atom)
  | [] => []
  | a :: as => document a :: documents as

def documentEntries : List (String × Json) → List (Document Atom × Document Atom)
  | [] => []
  | (k, a) :: as => (.scalar (.string k), document a) :: documentEntries as

end

/-- A typed value from a text that holds it and nothing else. -/
def decodeChars {α : Type} (d : Decoder Scalar α) (cs : List Char) : Except Failure α := do
  let reading := read cs
  let a ← reading.document.decode d
  if reading.overrun then .error ⟨.malformed, none⟩ else .ok a

def decodeText {α : Type} (d : Decoder Scalar α) (text : String) : Except Failure α :=
  decodeChars d text.toList

/-- An escape that stands for no character. -/
def loneSurrogate : List Char := ['\\', 'u', 'd', 'c', '0', '0']

/-- A typed value from bytes. Wrong bytes are harmless in a text that nobody looks at and malformed elsewhere, just as an
escape that stands for no character. -/
def decodeBytes {α : Type} (d : Decoder Scalar α) (bytes : Text.Bytes) : Except Failure α :=
  decodeChars d (Text.decodeMarked loneSurrogate bytes)

/-- A typed value from a stored value. -/
def decode {α : Type} (d : Decoder Atom α) (v : Json) : Except Failure α :=
  v.document.decode d

/-- The value that a text holds. -/
def parse? (text : String) : Option Json :=
  (decodeText Decoder.any text).toOption

end ScriptRunner.Json
