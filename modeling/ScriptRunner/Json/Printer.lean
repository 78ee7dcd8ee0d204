import ScriptRunner.Json.Value

/-!
# Compact JSON text

No blank stands between the parts of a value. In a string the quote, the backslash and the characters below U+0020 are
escaped, with a letter where JSON has one; all other characters stand for themselves.
-/

namespace ScriptRunner.Json

def hexDigit (n : Nat) : Char :=
  if n < 10 then Char.ofNat (n + '0'.toNat) else Char.ofNat (n - 10 + 'a'.toNat)

/-- A character as it stands between the quotes of a string. -/
def escape (c : Char) : List Char :=
  if c = '"' then ['\\', '"']
  else if c = '\\' then ['\\', '\\']
  else if c = '\x08' then ['\\', 'b']
  else if c = '\x0c' then ['\\', 'f']
  else if c = '\n' then ['\\', 'n']
  else if c = '\r' then ['\\', 'r']
  else if c = '\t' then ['\\', 't']
  else if c.toNat < 0x20 then ['\\', 'u', '0', '0', hexDigit (c.toNat / 16), hexDigit (c.toNat % 16)]
  else [c]

def quoted (s : List Char) : List Char :=
  '"' :: (s.flatMap escape ++ ['"'])

mutual

def chars : Json → List Char
  | .null => ['n', 'u', 'l', 'l']
  | .bool true => ['t', 'r', 'u', 'e']
  | .bool false => ['f', 'a', 'l', 's', 'e']
  | .int n => (toString n).toList
  | .float x => x.text.toList
  | .string s => quoted s.toList
  | .array items => '[' :: itemChars items
  | .object members => '\x7b' :: memberChars members

/-- The items of an array and its closing bracket. -/
def itemChars : List Json → List Char
  | [] => [']']
  | [a] => chars a ++ [']']
  | a :: as => chars a ++ ',' :: itemChars as

/-- The members of an object and its closing brace. -/
def memberChars : List (String × Json) → List Char
  | [] => ['\x7d']
  | [(k, a)] => quoted k.toList ++ ':' :: (chars a ++ ['\x7d'])
  | (k, a) :: as => quoted k.toList ++ ':' :: (chars a ++ ',' :: memberChars as)

end

def compact (v : Json) : String :=
  String.ofList (chars v)

end ScriptRunner.Json
