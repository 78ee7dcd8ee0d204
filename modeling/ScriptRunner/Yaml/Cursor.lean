/-!
# Positions in YAML text

A cursor is the text that is left with the line and the column at which it starts. Five characters end a line; a carriage
return and the line feed after it count as one.
-/

namespace ScriptRunner.Yaml

structure Cursor where
  rest : List Char
  line : Nat
  column : Nat
  index : Nat
  deriving Inhabited

/-- The character ends a line. -/
def isBreak (c : Char) : Bool :=
  c = '\n' || c = '\r' || c = '\u0085' || c = '\u2028' || c = '\u2029'

/-- The character is a space or a tab. -/
def isGap (c : Char) : Bool := c = ' ' || c = '\t'

/-- The character may stand in the name of an anchor or a tag handle. -/
def isNameChar (c : Char) : Bool := c.isAlphanum || c = '_' || c = '-'

/-- The character may stand in a YAML text. -/
def isAllowed (c : Char) : Bool :=
  let n := c.toNat
  n = 0x09 || n = 0x0A || n = 0x0D || (0x20 ≤ n && n ≤ 0x7E) || n = 0x85 || (0xA0 ≤ n && n ≤ 0xD7FF)
    || (0xE000 ≤ n && n ≤ 0xFFFD) || 0x10000 ≤ n

namespace Cursor

def start (cs : List Char) : Cursor := ⟨cs, 0, 0, 0⟩

def peek? (c : Cursor) : Option Char := c.rest.head?

/-- The character at a distance. -/
def peekAt? (c : Cursor) (n : Nat) : Option Char := c.rest[n]?

def startsWith (c : Cursor) (x : Char) : Bool := c.peek? == some x

/-- The character at a distance has the property, or the text ends before it. -/
def endsOr (c : Cursor) (n : Nat) (p : Char → Bool) : Bool :=
  match c.peekAt? n with
  | none => true
  | some x => p x

def atEnd (c : Cursor) : Bool := c.rest.isEmpty

def atBreak (c : Cursor) : Bool := c.rest.head?.any isBreak

def atGap (c : Cursor) : Bool := c.rest.head?.any isGap

/-- The character at a distance is a space, a tab, the end of a line or the end of the text. -/
def atSpaceAt (c : Cursor) (n : Nat) : Bool := c.endsOr n fun x => isGap x || isBreak x

/-- Passes characters within a line. -/
def skip (c : Cursor) (n : Nat) : Cursor :=
  { c with rest := c.rest.drop n, column := c.column + n, index := c.index + n }

/-- Passes the end of a line, if one is here. -/
def skipBreak (c : Cursor) : Cursor :=
  match c.rest with
  | '\r' :: '\n' :: r => ⟨r, c.line + 1, 0, c.index + 2⟩
  | x :: r => if isBreak x then ⟨r, c.line + 1, 0, c.index + 1⟩ else c
  | [] => c

/-- Ends a line that is not empty. -/
def endLine (c : Cursor) : Cursor := if c.column = 0 then c else { c with line := c.line + 1, column := 0 }

/-- What the end of a line here contributes to a text: a line feed, but for the two separators of Unicode. -/
def breakText (c : Cursor) : List Char :=
  match c.rest with
  | x :: _ => if x = '\u2028' ∨ x = '\u2029' then [x] else if isBreak x then ['\n'] else []
  | [] => []

/-- Passes the characters with a property. -/
def skipWhile (c : Cursor) (p : Char → Bool) : List Char × Cursor :=
  let taken := c.rest.takeWhile p
  (taken, c.skip taken.length)

/-- Three of a character stand at the start of a line, with a space after them. -/
def atDocumentMark (c : Cursor) (x : Char) : Bool :=
  c.column = 0 && c.peekAt? 0 == some x && c.peekAt? 1 == some x && c.peekAt? 2 == some x && c.atSpaceAt 3

end Cursor

end ScriptRunner.Yaml
