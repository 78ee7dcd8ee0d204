import ScriptRunner.Json.Format
import ScriptRunner.Text.Blank
import ScriptRunner.Text.Utf8

/-!
# HTTP requests and answers

A request as a router sees it, and the answer to it. The path keeps its percent escapes; the query is not looked at.
-/

namespace ScriptRunner.Http

open Text (Bytes)

structure Request where
  method : String
  /-- The target, which may carry a query. -/
  target : String
  contentType : Option String
  body : Bytes
  deriving DecidableEq, Repr, Inhabited

inductive Body where
  | empty
  | text (content : String)
  | json (value : Json)
  deriving Inhabited

structure Response where
  status : Nat
  body : Body
  /-- Browsers of every other origin may read the answer. -/
  openToAll : Bool
  deriving Inhabited

namespace Response

/-- An answer without a body. -/
def bare (status : Nat) : Response := ⟨status, .empty, false⟩

def json (status : Nat) (value : Json) : Response := ⟨status, .json value, false⟩

def text (status : Nat) (content : String) : Response := ⟨status, .text content, false⟩

/-- The answer without its body, as `HEAD` asks for it. -/
def headOnly (r : Response) : Response := { r with body := .empty }

end Response

/-- The path of a target. -/
def pathOf (target : String) : String :=
  String.ofList (target.toList.takeWhile fun c => c ≠ '?' && c ≠ '#')

/-! ## Percent escapes -/

/-- The bytes that percent escapes stand for; a percent sign without two digits stands for itself. -/
def unescape : Bytes → Bytes
  | 0x25 :: a :: b :: r =>
    match digitValue? 16 (Char.ofNat a.toNat), digitValue? 16 (Char.ofNat b.toNat) with
    | some x, some y => UInt8.ofNat (x * 16 + y) :: unescape r
    | _, _ => 0x25 :: unescape (a :: b :: r)
  | a :: r => a :: unescape r
  | [] => []
termination_by bs => bs.length

/-- The text of a part of a path. -/
def pathText? (part : String) : Option String := (Text.decodeUtf8 (unescape (Text.encodeUtf8 part))).toOption

/-! ## Content types -/

/-- The characters of a token. -/
def isTokenChar (c : Char) : Bool := c.isAlphanum || "!#$%&'*+-.^_|~".toList.contains c || c == Char.ofNat 0x60

/-- The characters that may stand between quotes. -/
def isQuotable (c : Char) : Bool := 0x20 ≤ c.toNat && c.toNat < 0x7F

/-- The text after a quoted value and the blanks that follow it; the first character of the value may be a quote. -/
def afterQuoted? : List Char → Option (List Char)
  | [] => none
  | c :: r =>
    if isQuotable c then
      match r.dropWhile fun c => c ≠ '"' && isQuotable c with
      | '"' :: r => some (r.dropWhile (· == ' '))
      | _ => none
    else none

/-- What may follow a type: parameters after semicolons, with blanks and empty parameters between them. The first argument
bounds their number. -/
def areParameters : Nat → List Char → Bool
  | _, [] => true
  | 0, _ => false
  | n + 1, c :: r =>
    if c = ' ' ∨ c = ';' then areParameters n r
    else if !isTokenChar c then false
    else
      match r.dropWhile isTokenChar with
      | '=' :: '"' :: r =>
        match afterQuoted? r with
        | some [] => true
        | some (';' :: r) => areParameters n r
        | _ => false
      | '=' :: r =>
        match r.dropWhile isTokenChar with
        | [] => true
        | ';' :: rest => rest.length + 1 < r.length && areParameters n rest
        | _ => false
      | _ => false

/-- The subtype without its suffix, and the suffix: what stands after the last plus sign that is not the first character. -/
def splitSuffix (subtype : List Char) : List Char × Option (List Char) :=
  let suffix := (subtype.reverse.takeWhile (· != '+')).reverse
  let stem := subtype.take (subtype.length - suffix.length - 1)
  if suffix.length < subtype.length && !stem.isEmpty then (stem, some suffix) else (subtype, none)

/-- The content is JSON: its type is `application/json` or one that builds on JSON. -/
def isJsonType (contentType : String) : Bool :=
  let cs := contentType.toList.map Char.toLower
  match cs.dropWhile isTokenChar with
  | '/' :: r =>
    let (stem, suffix) := splitSuffix (r.takeWhile isTokenChar)
    cs.takeWhile isTokenChar == "application".toList && (stem == "json".toList || suffix == some "json".toList)
      && match r.dropWhile isTokenChar with
        | [] => true
        | c :: r => (c == ' ' || c == ';') && areParameters r.length r
  | _ => false

/-- A typed body, or the status of the refusal: not JSON by its type, not JSON by its text, or JSON of another kind. -/
def readBody {α : Type} (d : Decoder Json.Scalar α) (r : Request) : Except Nat α :=
  if !(r.contentType.any isJsonType) then .error 415
  else
    match Json.decodeBytes d r.body with
    | .ok a => .ok a
    | .error f =>
      match f.cause with
      | .malformed => .error 400
      | _ => .error 422

end ScriptRunner.Http
