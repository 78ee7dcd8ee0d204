import ScriptRunner.Json.Printer
import ScriptRunner.Script.Definition
import ScriptRunner.Text.Blank

/-!
# Binding raw values to typed parameters

Every declared parameter gets a value, in declaration order; values for names that the definition does not declare are
left alone. A checkbox is off when its value is missing, blank, `0` or `false`. Any other value is trimmed; where that
leaves nothing, a required parameter is refused and another one takes its default as it is declared. A number parameter
takes a finite decimal number, and nothing stands for zero.
-/

namespace ScriptRunner.Script

/-- The value of a parameter. -/
inductive BoundValue where
  | bool (value : Bool)
  | text (value : String)
  | number (digits : String)
  deriving DecidableEq, Repr

namespace BoundValue

/-- The value as a literal of the generated program. -/
def literal : BoundValue → String
  | bool true => "true"
  | bool false => "false"
  | text s => (Json.string s).compact
  | number s => s

def isTrue (v : BoundValue) : Bool := v = bool true

/-- The text of a value that has one. -/
def asText : BoundValue → String
  | bool _ => ""
  | text s => s
  | number s => s

end BoundValue

/-- Why a tree has no program. -/
inductive CompileError where
  | unknownScript (name : String)
  | missingRequired (field script : String)
  | invalidValue (field script value : String)
  deriving DecidableEq, Repr

def CompileError.message : CompileError → String
  | .unknownScript name => s!"unknown script {name}"
  | .missingRequired field script => s!"field '{field}' of '{script}' is required"
  | .invalidValue field script value => s!"field '{field}' of '{script}' has invalid value '{value}'"

/-- The texts are equal but for the case of ASCII letters. -/
def equalIgnoringCase (a b : String) : Bool :=
  a.toList.map Char.toLower == b.toList.map Char.toLower

/-- Whether a checkbox is on. -/
def isChecked (raw : Option String) : Bool :=
  match raw.map Text.trim with
  | none => false
  | some value => !(value.isEmpty || value == "0" || equalIgnoringCase value "false")

/-- The text is a finite decimal number. -/
def isNumber (s : String) : Bool :=
  (Decimal.parse? s.toList).any Decimal.isFinite

/-- The value of one parameter from the raw value that a node has for it. -/
def Param.bind (p : Param) (scriptTitle : String) (raw : Option String) : Except CompileError BoundValue :=
  if p.kind.isBoolean then .ok (.bool (isChecked raw))
  else
    let given := (raw.map Text.trim).getD ""
    if given.isEmpty && p.required then .error (.missingRequired p.displayTitle scriptTitle)
    else
      let value := if given.isEmpty then p.default.getD "" else given
      match p.kind with
      | .number =>
        if value.isEmpty then .ok (.number "0")
        else if isNumber value then .ok (.number value)
        else .error (.invalidValue p.displayTitle scriptTitle value)
      | _ => .ok (.text value)

/-- The values of the declared parameters, in declaration order. -/
def bindParams (d : Definition) (values : Dict String) : Except CompileError (List (String × BoundValue)) :=
  d.params.mapM fun p => (p.bind d.displayTitle (values.find? p.name)).map fun v => (p.name, v)

end ScriptRunner.Script
