import ScriptRunner.Text.Blank

/-!
# Identifiers from names

A name becomes an identifier of the generated program: lower-case ASCII letters, digits and underscores, not starting
with a digit, and no reserved word.
-/

namespace ScriptRunner.Script

/-- Words that cannot name a function or a parameter, strict code included. -/
def reservedWords : List String :=
  ["arguments", "await", "break", "case", "catch", "class", "const", "continue", "debugger", "default", "delete", "do",
   "else", "enum", "eval", "export", "extends", "false", "finally", "for", "function", "if", "implements", "import",
   "in", "instanceof", "interface", "let", "new", "null", "package", "private", "protected", "public", "return",
   "static", "super", "switch", "this", "throw", "true", "try", "typeof", "var", "void", "while", "with", "yield"]

/-- The character that stands for a character of a name. -/
def identifierChar (c : Char) : Char :=
  if c.isAlphanum || c = '_' then c.toLower else '_'

/-- The identifier for a name: blanks at its ends do not count, a blank name is `script`, a digit in front gets an
underscore before it and a reserved word one after it. -/
def identifier (name : String) : String :=
  let cs := (Text.strip Text.isBlank name.toList).map identifierChar
  match cs with
  | [] => "script"
  | c :: _ =>
    if c.isDigit then String.ofList ('_' :: cs)
    else if reservedWords.contains (String.ofList cs) then String.ofList (cs ++ ['_'])
    else String.ofList cs

end ScriptRunner.Script
