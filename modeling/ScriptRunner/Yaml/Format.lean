import ScriptRunner.Document.Decoder
import ScriptRunner.Yaml.Reader

/-!
# Typed values from YAML

What a plain scalar is depends on what is asked for: any scalar is a text, while numbers, truth values and nothing are
recognised by their spelling. Whole numbers may be hexadecimal, octal or binary; a leading zero makes a text.
-/

namespace ScriptRunner.Yaml

namespace Scalar

def boolTag : String := "tag:yaml.org,2002:bool"
def intTag : String := "tag:yaml.org,2002:int"
def floatTag : String := "tag:yaml.org,2002:float"
def nullTag : String := "tag:yaml.org,2002:null"

/-! ## Spellings -/

def isNull (s : String) : Bool := ["null", "Null", "NULL", "~"].contains s

def bool? (s : String) : Option Bool :=
  if ["true", "True", "TRUE"].contains s then some true
  else if ["false", "False", "FALSE"].contains s then some false
  else none

def isSign (c : Char) : Bool := c = '+' || c = '-'

/-- Digits with a zero in front of others are no number. -/
def hasLeadingZero (cs : List Char) : Bool :=
  let cs := match cs with
    | c :: r => if isSign c then r else c :: r
    | [] => []
  match cs with
  | '0' :: d :: ds => (d :: ds).all Char.isDigit
  | _ => false

/-- Digits of a radix that is marked by a letter after a zero. -/
def marked? (range : IntRange) (sign : List Char) : List Char → Option Int
  | '0' :: m :: digits =>
    let radix := if m = 'x' then 16 else if m = 'o' then 8 else if m = 'b' then 2 else 0
    if radix = 0 || digits.head?.any isSign then none else (range.parse radix (sign ++ digits)).toOption
  | _ => none

/-- A whole number without a minus sign. -/
def unsigned? (range : IntRange) (cs : List Char) : Option Int :=
  let body := match cs with | '+' :: r => r | cs => cs
  match marked? range [] body with
  | some n => some n
  | none =>
    if body.head?.any isSign || hasLeadingZero cs then none else (range.parse 10 body).toOption

/-- A whole number with a minus sign. -/
def negative? (range : IntRange) (cs : List Char) : Option Int :=
  match cs with
  | '-' :: r =>
    match marked? range ['-'] r with
    | some n => some n
    | none => if hasLeadingZero cs then none else (range.parse 10 cs).toOption
  | _ => none

/-- A whole number with or without a sign. -/
def signed? (range : IntRange) (cs : List Char) : Option Int :=
  match cs with
  | '-' :: _ => negative? range cs
  | cs => unsigned? range cs

/-- A number with its text, positional at any magnitude. -/
def float? (cs : List Char) : Option (String × Option Binary64) :=
  let body := match cs with | '+' :: r => r | cs => cs
  if body.head?.any isSign && body ≠ cs then none
  else if [".inf", ".Inf", ".INF"].contains (String.ofList body) then some ("inf", none)
  else if ["-.inf", "-.Inf", "-.INF"].contains (String.ofList cs) then some ("-inf", none)
  else if [".nan", ".NaN", ".NAN"].contains (String.ofList cs) then some ("NaN", none)
  else
    match (Decimal.parse? body).bind Binary64.ofDecimal? with
    | some x => some (x.positionalText, some x)
    | none => none

/-- What a plain scalar is by its spelling. -/
inductive Kind where
  | null
  | bool (value : Bool)
  | int (value : Int)
  | wide (value : Int) (range : IntRange)
  | float (text : String) (value : Option Binary64)
  | text

def intKind? (cs : List Char) : Option Kind :=
  (unsigned? .uint64 cs).map .int
    <|> (negative? .int64 cs).map .int
    <|> (unsigned? .uint128 cs).map (.wide · .uint128)
    <|> (negative? .int128 cs).map (.wide · .int128)

def plainKind (s : String) : Kind :=
  if s.isEmpty || isNull s then .null
  else
    match bool? s with
    | some b => .bool b
    | none =>
      match intKind? s.toList with
      | some k => k
      | none =>
        if hasLeadingZero s.toList then .text
        else
          match float? s.toList with
          | some (t, x) => .float t x
          | none => .text

/-- The kind that a tag asks for, if the spelling fits it. -/
def taggedKind (tag s : String) : Except Cause Kind :=
  let orFail (k : Option Kind) (want : String) : Except Cause Kind :=
    match k with
    | some k => .ok k
    | none => .error (.invalidValue (.string s) want)
  if tag = boolTag then orFail ((bool? s).map .bool) "a boolean"
  else if tag = intTag then orFail (intKind? s.toList) "an integer"
  else if tag = floatTag then orFail ((float? s.toList).map fun (t, x) => .float t x) "a float"
  else if tag = nullTag then orFail (if isNull s then some .null else none) "null"
  else .ok .text

def kind (s : Scalar) : Except Cause Kind :=
  match s.tag with
  | some tag => taggedKind tag s.text
  | none => .ok (if s.style = .plain then plainKind s.text else .text)

def got (s : Scalar) : Except Cause Got :=
  s.kind.map fun
    | .null => .nothing "unit value"
    | .bool b => .boolean b
    | .int n => .integer n
    | .wide n range => .wideInteger n range
    | .float t _ => .float t
    | .text => .string s.text

/-- The tag names an alternative of the program. -/
def localTag? (s : Scalar) : Option String :=
  s.tag.bind fun t => if t.startsWith "!" then some (if t = "!" then t else (t.drop 1).copy) else none

/-- The spelling may be looked at for a value of the type with the tag. -/
def isLiteralFor (tag : String) (s : Scalar) : Bool :=
  s.style = .plain || (s.style = .literal && s.tag = some tag)

def mismatch {α : Type} (s : Scalar) (want : String) : Except Cause α :=
  s.got >>= fun got => .error (.invalidType got want)

end Scalar

namespace Content

def asString : Content → Except Cause String
  | .scalar s => .ok s.text
  | .nothing => .error .malformed

def asBoolean : Content → Except Cause Bool
  | .scalar s =>
    match (if s.isLiteralFor Scalar.boolTag then Scalar.bool? s.text else none) with
    | some b => .ok b
    | none => s.mismatch "a boolean"
  | .nothing => .error .malformed

def asInteger (range : IntRange) : Content → Except Cause Int
  | .scalar s =>
    let read := if range.isSigned then Scalar.signed? .int64 else Scalar.unsigned? .uint64
    match (if s.isLiteralFor Scalar.intTag then read s.text.toList else none) with
    | some n => if range.contains n then .ok n else .error (.invalidValue (.integer n) range.name)
    | none => s.mismatch range.name
  | .nothing => .error .malformed

def asValue : Content → Except Cause Json
  | .nothing => .ok .null
  | .scalar s =>
    if s.localTag?.isSome then .error (.invalidType .tagged "any valid JSON value")
    else do
      match ← s.kind with
      | .null => .ok .null
      | .bool b => .ok (.bool b)
      | .int n => .ok (.int n)
      | .wide n range => .error (.invalidType (.wideInteger n range) "any valid JSON value")
      | .float _ (some x) => .ok (.float x)
      | .float _ none => .ok .null
      | .text => .ok (.string s.text)

def got : Content → Except Cause Got
  | .scalar s => s.got
  | .nothing => .error .malformed

def isAbsent : Content → Bool
  | .nothing => true
  | .scalar s =>
    s.style = .plain &&
      match s.tag with
      | some tag => tag = Scalar.nullTag && Scalar.isNull s.text
      | none => s.text.isEmpty || Scalar.isNull s.text

def isVoid : Content → Bool
  | .nothing => true
  | .scalar s => s.style = .plain && s.text.isEmpty

end Content

/-- The name of an alternative: the text of a scalar, or the tag of one without content. -/
def variant : Document Content → Except Cause String
  | .scalar (.scalar s) =>
    match s.localTag? with
    | none => .ok s.text
    | some name =>
      if s.style = .plain && (s.text.isEmpty || Scalar.isNull s.text) then .ok name
      else ({ s with tag := none } : Scalar).mismatch "unit"
  | .scalar .nothing => .error .malformed
  | .sequence _ => .error (.invalidType .sequence "a YAML tag starting with '!'")
  | .mapping _ => .error (.invalidType .mapping "a YAML tag starting with '!'")
  | .damaged => .error .malformed

instance : Format Content where
  string := Content.asString
  boolean := Content.asBoolean
  integer := Content.asInteger
  value := Content.asValue
  got := Content.got
  isAbsent := Content.isAbsent
  isVoid := Content.isVoid
  variant _ := variant
  recordsAsSequences := false
  showsPath := true
  depthLimit := 128

/-- A typed value from the only document of a text. -/
def decodeText {α : Type} (d : Decoder Content α) (text : String) : Except Failure α := do
  let (doc, overrun) := read text.toList
  let a ← doc.decode d
  if overrun then .error ⟨.malformed, none⟩ else .ok a

end ScriptRunner.Yaml
