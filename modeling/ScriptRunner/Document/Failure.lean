import ScriptRunner.Number.FixedWidth
import ScriptRunner.Text.Quoted

/-!
# Why a document has no value of a type

A failure is a cause and, for formats that show it, the place where it arose. A text that breaks the grammar of its
format is only called malformed, whatever the fault is.
-/

namespace ScriptRunner

/-- What stands in the document where another kind of value is wanted. -/
inductive Got where
  /-- Nothing, under the name that the format has for it. -/
  | nothing (name : String)
  | boolean (value : Bool)
  | integer (value : Int)
  /-- A whole number beyond 64 bits, with the range that holds it. -/
  | wideInteger (value : Int) (range : IntRange)
  | float (text : String)
  | string (value : String)
  | sequence
  | mapping
  | tagged

def Got.message : Got → String
  | .nothing name => name
  | .boolean value => s!"boolean `{value}`"
  | .integer value => s!"integer `{value}`"
  | .wideInteger value range => s!"integer `{value}` as {range.name}"
  | .float text => s!"floating point `{text}`"
  | .string value => "string " ++ Text.quoted value
  | .sequence => "sequence"
  | .mapping => "map"
  | .tagged => "enum"

inductive Cause where
  | malformed
  /-- A record that is written as a sequence has too few items. -/
  | tooShort
  | missingField (field : String)
  | duplicateField (field : String)
  | unknownVariant (found : String) (known : List String)
  | invalidType (got : Got) (want : String)
  | invalidValue (got : Got) (want : String)
  | taskStatus (code : Int)
  | integerText (fault : IntegerFault)

/-- Names between grave accents, as a message lists them. -/
def listNames : List String → String
  | [] => "there are no variants"
  | [a] => s!"expected `{a}`"
  | [a, b] => s!"expected `{a}` or `{b}`"
  | names => "expected one of " ++ ", ".intercalate (names.map fun n => s!"`{n}`")

def Cause.message : Cause → String
  | .malformed => "malformed"
  | .tooShort => "malformed"
  | .missingField field => s!"missing field `{field}`"
  | .duplicateField field => s!"duplicate field `{field}`"
  | .unknownVariant found known => s!"unknown variant `{found}`, {listNames known}"
  | .invalidType got want => s!"invalid type: {got.message}, expected {want}"
  | .invalidValue got want => s!"invalid value: {got.message}, expected {want}"
  | .taskStatus code => s!"Invalid task status: {code}"
  | .integerText fault => fault.message

/-- One step from a collection to a part of it. -/
inductive Step where
  | field (key : String)
  | item (index : Nat)
  | unnamed

/-- The steps from the root, the last one first. -/
abbrev Path := List Step

def Path.text : Path → String
  | [] => "."
  | .field key :: [] => key
  | .field key :: path => s!"{Path.text path}.{key}"
  | .unnamed :: [] => "?"
  | .unnamed :: path => s!"{Path.text path}.?"
  | .item index :: path => s!"{Path.text path}[{index}]"

structure Failure where
  cause : Cause
  path : Option Path

/-- Names the place of a failure that has none yet. -/
def Failure.locate (path : Path) (f : Failure) : Failure :=
  ⟨f.cause, f.path <|> some path⟩

/-- The message without the place. -/
def Failure.message (f : Failure) : String :=
  f.cause.message

/-- The message after the place, which is left out at the root and for malformed text. -/
def Failure.messageWithPath (f : Failure) : String :=
  match f.cause, f.path with
  | .malformed, _ => f.message
  | .tooShort, _ => f.message
  | _, some (s :: path) => s!"{Path.text (s :: path)}: {f.message}"
  | _, _ => f.message

end ScriptRunner
