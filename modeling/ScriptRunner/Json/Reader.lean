import ScriptRunner.Json.Numeral
import ScriptRunner.Document.Basic

/-!
# Reading JSON text

The reader yields a document even for a text that breaks off or breaks the grammar: the damage stands where the text
stops making sense. Numerals and escaped characters without a meaning are kept apart from damage, because a value that
nobody asks for may hold them.
-/

namespace ScriptRunner.Json

/-- A scalar as it is written. -/
inductive Scalar where
  | null
  | bool (value : Bool)
  | number (numeral : Numeral)
  /-- The characters of a string, unless it escapes half of a surrogate pair. -/
  | string (characters : Option (List Char))
  deriving DecidableEq, Repr, Inhabited

abbrev Written := Document Scalar

/-! ## Strings -/

def hexValue? (c : Char) : Option Nat := digitValue? 16 c

def hexValue4? (a b c d : Char) : Option Nat := do
  let a ← hexValue? a
  let b ← hexValue? b
  let c ← hexValue? c
  let d ← hexValue? d
  some (((a * 16 + b) * 16 + c) * 16 + d)

def isHighSurrogate (n : Nat) : Bool := 0xD800 ≤ n && n < 0xDC00

def isLowSurrogate (n : Nat) : Bool := 0xDC00 ≤ n && n < 0xE000

/-- The character that a letter after a backslash stands for. -/
def unescape? (c : Char) : Option Char :=
  if c = '"' ∨ c = '\\' ∨ c = '/' then some c
  else if c = 'b' then some '\x08'
  else if c = 'f' then some '\x0c'
  else if c = 'n' then some '\n'
  else if c = 'r' then some '\r'
  else if c = 't' then some '\t'
  else none

/-- The string in front of which a character stands. -/
def addChar (c : Char) (s : Option (List Char) × List Char) : Option (List Char) × List Char :=
  (s.1.map (c :: ·), s.2)

/-- The string without its characters. -/
def spoil (s : Option (List Char) × List Char) : Option (List Char) × List Char :=
  (none, s.2)

/-- The characters up to the closing quote and the text after it, unless the string is damaged. -/
def stringBody? : List Char → Option (Option (List Char) × List Char)
  | [] => none
  | '"' :: r => some (some [], r)
  | '\\' :: 'u' :: a :: b :: c :: d :: r =>
    match hexValue4? a b c d with
    | none => none
    | some n =>
      if isHighSurrogate n then
        match r with
        | '\\' :: 'u' :: e :: f :: g :: h :: r' =>
          match hexValue4? e f g h with
          | none => none
          | some m =>
            if isLowSurrogate m then
              (stringBody? r').map (addChar (Char.ofNat (0x10000 + (n - 0xD800) * 0x400 + (m - 0xDC00))))
            else (stringBody? r').map spoil
        | r => (stringBody? r).map spoil
      else if isLowSurrogate n then (stringBody? r).map spoil
      else (stringBody? r).map (addChar (Char.ofNat n))
  | '\\' :: c :: r =>
    match unescape? c with
    | none => none
    | some u => (stringBody? r).map (addChar u)
  | c :: r => if c.toNat < 0x20 then none else (stringBody? r).map (addChar c)

/-! ## Numbers -/

/-- Digits of which there is at least one, and the text after them. -/
def digits? (cs : List Char) : Option (List Char × List Char) :=
  match cs.takeWhile Char.isDigit with
  | [] => none
  | ds => some (ds, cs.dropWhile Char.isDigit)

def exponent? (cs : List Char) : Option (Option (Bool × List Char) × List Char) :=
  match cs with
  | [] => some (none, [])
  | c :: r =>
    if c = 'e' ∨ c = 'E' then
      let (negative, r) :=
        match r with
        | '+' :: r => (false, r)
        | '-' :: r => (true, r)
        | r => (false, r)
      (digits? r).map fun (ds, r) => (some (negative, ds), r)
    else some (none, cs)

def fraction? (cs : List Char) : Option (Option (List Char) × List Char) :=
  match cs with
  | '.' :: r => (digits? r).map fun (ds, r) => (some ds, r)
  | cs => some (none, cs)

/-- The digits before the point: a zero alone, or digits that do not start with one. -/
def whole? (cs : List Char) : Option (List Char × List Char) :=
  match digits? cs with
  | some ('0' :: _ :: _, _) => none
  | r => r

/-- The numeral at the start of a text, with the text after it. -/
def numeral? (cs : List Char) : Option (Numeral × List Char) :=
  let (negative, cs) :=
    match cs with
    | '-' :: r => (true, r)
    | cs => (false, cs)
  do
    let (whole, cs) ← whole? cs
    let (fraction, cs) ← fraction? cs
    let (exponent, cs) ← exponent? cs
    some (⟨negative, whole, fraction, exponent⟩, cs)

/-! ## Values -/

/-- The blanks that may stand between the parts of a value. -/
def isGap (c : Char) : Bool := c = ' ' || c = '\n' || c = '\t' || c = '\r'

def skipGap (cs : List Char) : List Char := cs.dropWhile isGap

mutual

/-- The value at the start of a text, with the text after it; nothing is left after damage. -/
def readValue : Nat → List Char → Written × List Char
  | 0, _ => (.damaged, [])
  | n + 1, cs =>
    match skipGap cs with
    | '\x7b' :: r =>
      match skipGap r with
      | '\x7d' :: r => (.mapping [], r)
      | r => let (es, r) := readMembers n r; (.mapping es, r)
    | '[' :: r =>
      match skipGap r with
      | ']' :: r => (.sequence [], r)
      | r => let (ds, r) := readItems n r; (.sequence ds, r)
    | '"' :: r =>
      match stringBody? r with
      | some (s, r) => (.scalar (.string s), r)
      | none => (.damaged, [])
    | 'n' :: 'u' :: 'l' :: 'l' :: r => (.scalar .null, r)
    | 't' :: 'r' :: 'u' :: 'e' :: r => (.scalar (.bool true), r)
    | 'f' :: 'a' :: 'l' :: 's' :: 'e' :: r => (.scalar (.bool false), r)
    | r =>
      match numeral? r with
      | some (x, r) => (.scalar (.number x), r)
      | none => (.damaged, [])

/-- The items of an array up to its closing bracket. -/
def readItems : Nat → List Char → List Written × List Char
  | 0, _ => ([.damaged], [])
  | n + 1, cs =>
    let (d, r) := readValue n cs
    match skipGap r with
    | ',' :: r => let (ds, r) := readItems n r; (d :: ds, r)
    | ']' :: r => ([d], r)
    | _ => ([d, .damaged], [])

/-- The members of an object up to its closing brace. -/
def readMembers : Nat → List Char → List (Written × Written) × List Char
  | 0, _ => ([(.damaged, .damaged)], [])
  | n + 1, cs =>
    match skipGap cs with
    | '"' :: r =>
      match stringBody? r with
      | none => ([(.damaged, .damaged)], [])
      | some (k, r) =>
        let key : Written := .scalar (.string k)
        match skipGap r with
        | ':' :: r =>
          let (d, r) := readValue n r
          match skipGap r with
          | ',' :: r => let (es, r) := readMembers n r; ((key, d) :: es, r)
          | '\x7d' :: r => ([(key, d)], r)
          | _ => ([(key, d), (.damaged, .damaged)], [])
        | _ => ([(key, .damaged)], [])
    | _ => ([(.damaged, .damaged)], [])

end

/-- A document and whether anything but blanks follows it. -/
structure Reading (σ : Type) where
  document : Document σ
  overrun : Bool

def read (cs : List Char) : Reading Scalar :=
  let (d, r) := readValue (cs.length + 1) cs
  ⟨d, skipGap r ≠ []⟩

end ScriptRunner.Json
