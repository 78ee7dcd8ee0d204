import ScriptRunner.Json.Printer
import ScriptRunner.Yaml.Format

/-!
# Writing YAML

A value is written as block mappings, each level two spaces deeper than the one around it. A text stands without quotes
where it reads back as that text.
-/

namespace ScriptRunner.Yaml

/-- The text can stand as a plain scalar. -/
def isPlainText (s : String) : Bool :=
  (match Scalar.plainKind s with | .text => true | _ => false)
    && s.toList.all fun c => c.isAlphanum || c = '.' || c = '_' || c = '/' || c = '-'

def scalarText : Json → String
  | .null => "null"
  | .bool b => toString b
  | .int n => toString n
  | .float x => x.text
  | .string s => if isPlainText s then s else (Json.string s).compact
  | .array _ => "[]"
  | .object _ => "\x7b\x7d"

mutual

/-- The lines of a value below a key, and what stands on the line of the key itself. -/
def lines : Json → String × List String
  | .object (m :: ms) => ("", memberLines (m :: ms))
  | .array (a :: as) => ("", itemLines (a :: as))
  | v => (" " ++ scalarText v, [])

def memberLines : List (String × Json) → List String
  | [] => []
  | (k, v) :: ms =>
    let (head, below) := lines v
    let deeper := match v with
      | .object _ => below.map ("  " ++ ·)
      | _ => below
    (k ++ ":" ++ head) :: (deeper ++ memberLines ms)

def itemLines : List Json → List String
  | [] => []
  | v :: vs =>
    let (head, below) := lines v
    let own := match head, below with
      | "", first :: more => ("- " ++ first) :: more.map ("  " ++ ·)
      | head, below => ("-" ++ head) :: below
    own ++ itemLines vs

end

/-- A value as a document. -/
def write (v : Json) : String :=
  match v with
  | .object (m :: ms) => String.join ((memberLines (m :: ms)).map (· ++ "\n"))
  | .array (a :: as) => String.join ((itemLines (a :: as)).map (· ++ "\n"))
  | v => scalarText v ++ "\n"

end ScriptRunner.Yaml
