import ScriptRunner.Text.Printable

/-!
# Quoted text in messages

A message that names a text puts it between quotes. Quotes, backslashes and the common control characters are escaped by
a letter, other hidden characters by their number.
-/

namespace ScriptRunner.Text

def hexDigits (n : Nat) : List Char :=
  Nat.toDigits 16 n

/-- A character as a quoted text shows it. -/
def shown (c : Char) : List Char :=
  if c = '\x00' then ['\\', '0']
  else if c = '\t' then ['\\', 't']
  else if c = '\r' then ['\\', 'r']
  else if c = '\n' then ['\\', 'n']
  else if c = '\\' then ['\\', '\\']
  else if c = '"' then ['\\', '"']
  else if isHidden c then '\\' :: 'u' :: '\x7b' :: (hexDigits c.toNat ++ ['\x7d'])
  else [c]

/-- A text between quotes, as messages show it. -/
def quoted (s : String) : String :=
  String.ofList ('"' :: (s.toList.flatMap shown ++ ['"']))

/-- A path between quotes. Apostrophes are escaped in it too. -/
def quotedPath (s : String) : String :=
  String.ofList ('"' :: (s.toList.flatMap fun c => if c = '\x27' then ['\\', c] else shown c) ++ ['"'])

end ScriptRunner.Text
