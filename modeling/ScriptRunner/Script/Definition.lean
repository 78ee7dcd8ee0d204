import ScriptRunner.Json.Format

/-!
# Script definitions and the trees that refer to them

A definition is a named template with typed parameters. A tree is made of nodes that name definitions and carry raw
values for their parameters. Both have a JSON form that decodes back to them.
-/

namespace ScriptRunner.Script

/-- The kind of value a parameter takes. -/
inductive ParamKind where
  | checkbox
  | text
  | textarea
  | number
  | select
  deriving DecidableEq, Repr, Inhabited

namespace ParamKind

def name : ParamKind → String
  | checkbox => "checkbox"
  | text => "text"
  | textarea => "textarea"
  | number => "number"
  | select => "select"

def all : List ParamKind := [checkbox, text, textarea, number, select]

def isBoolean (k : ParamKind) : Bool := k = checkbox

variable {σ : Type} [Format σ]

def decoder : Decoder σ ParamKind := Decoder.choice (all.map fun k => (k.name, k))

end ParamKind

/-- A parameter that a definition declares. -/
structure Param where
  /-- Also the key of the parameter among the values of a node. -/
  name : String
  title : String
  kind : ParamKind
  required : Bool
  default : Option String
  deriving DecidableEq, Repr, Inhabited

/-- Whether a definition is a template or code that a node brings along. -/
inductive Kind where
  | template
  | rawSource
  deriving DecidableEq, Repr, Inhabited

/-- A reference to a definition, with raw values for its parameters and nodes under it. -/
structure Node where
  name : String
  values : Dict String
  children : List Node
  disabled : Bool
  deriving Inhabited

structure Definition where
  name : String
  title : String
  kind : Kind
  params : List Param
  body : String
  tree : List Node
  /-- Titles by language. -/
  titles : Dict String
  /-- The script may stand in trees but cannot be started. -/
  unrunnable : Bool
  /-- The role that may run the script, if not all may. -/
  role : Option String
  deriving Inhabited

/-- Where the calls of the children go in the body of a definition. -/
def placeholder : String := "%body%"

/-- The parameter that holds the code of a raw source. -/
def sourceParam : String := "source"

/-- The parameter that makes a raw source a free fragment. -/
def inlineParam : String := "inline_function"

/-- The title, or the name where there is none. -/
def Param.displayTitle (p : Param) : String := if p.title.isEmpty then p.name else p.title

namespace Kind

def name : Kind → String
  | template => "template"
  | rawSource => "raw_source"

variable {σ : Type} [Format σ]

def decoder : Decoder σ Kind := Decoder.choice ([template, rawSource].map fun k => (k.name, k))

end Kind

namespace Definition

def displayTitle (d : Definition) : String := if d.title.isEmpty then d.name else d.title

def isRawSource (d : Definition) : Bool := d.kind = .rawSource

/-- A definition that takes its code from a parameter. -/
def rawSource (name title : String) : Definition where
  name := name
  title := title
  kind := .rawSource
  params := [⟨sourceParam, sourceParam, .textarea, false, none⟩, ⟨inlineParam, inlineParam, .checkbox, false, none⟩]
  body := placeholder
  tree := []
  titles := .empty
  unrunnable := false
  role := none

end Definition

/-! ## JSON form -/

def optionalText : Option String → Json
  | none => .null
  | some s => .string s

def textsByKey (d : Dict String) : Json :=
  .object (d.entries.map fun e => (e.1, .string e.2))

namespace Param

def json (p : Param) : Json :=
  .object [("name", .string p.name), ("title", .string p.title), ("type", .string p.kind.name),
    ("required", .bool p.required), ("default", optionalText p.default)]

variable {σ : Type} [Format σ]

def decoder : Decoder σ Param :=
  Fields.decoder
    (.more (.required "name" Decoder.string) <|
     .more (.withDefault "title" Decoder.string "") <|
     .more (.withDefault "type" ParamKind.decoder .text) <|
     .more (.withDefault "required" Decoder.boolean false) <|
     .more (.withDefault "default" (Decoder.optional Decoder.string) none) .done)
    "struct ParamDef"
    fun (name, title, kind, required, default, ()) => { name, title, kind, required, default }

end Param

namespace Node

mutual

def json : Node → Json
  | ⟨name, values, children, disabled⟩ =>
    .object [("name", .string name), ("values", textsByKey values), ("children", .array (jsons children)),
      ("disabled", .bool disabled)]

def jsons : List Node → List Json
  | [] => []
  | n :: ns => json n :: jsons ns

end

variable {σ : Type} [Format σ]

/-- Nodes that lie at most so many levels deep. -/
def decoderWithin : Nat → Decoder σ Node
  | 0 => fun _ _ => .error ⟨.malformed, none⟩
  | levels + 1 =>
    Fields.decoder
      (.more (.required "name" Decoder.string) <|
       .more (.withDefault "values" (Decoder.dict Decoder.string) .empty) <|
       .more (.withDefault "children" (Decoder.list (decoderWithin levels)) []) <|
       .more (.withDefault "disabled" Decoder.boolean false) .done)
      "struct ScriptNode"
      fun (name, values, children, disabled, ()) => { name, values, children, disabled }

/-- No document is deep enough to hold more levels of nodes. -/
def decoder : Decoder σ Node := decoderWithin (Format.depthLimit σ + 1)

end Node

namespace Definition

def json (d : Definition) : Json :=
  .object [("name", .string d.name), ("title", .string d.title), ("kind", .string d.kind.name),
    ("params", .array (d.params.map Param.json)), ("body", .string d.body), ("tree", .array (Node.jsons d.tree)),
    ("titles", textsByKey d.titles), ("unrunnable", .bool d.unrunnable), ("role", optionalText d.role)]

variable {σ : Type} [Format σ]

/-- Definitions with the nodes of their trees decoded in the given way. -/
def decoderOf (node : Decoder σ Node) : Decoder σ Definition :=
  Fields.decoder
    (.more (.required "name" Decoder.string) <|
     .more (.withDefault "title" Decoder.string "") <|
     .more (.withDefault "kind" Kind.decoder .template) <|
     .more (.withDefault "params" (Decoder.list Param.decoder) []) <|
     .more (.withDefault "body" Decoder.string placeholder) <|
     .more (.withDefault "tree" (Decoder.list node) []) <|
     .more (.withDefault "titles" (Decoder.dict Decoder.string) .empty) <|
     .more (.withDefault "unrunnable" Decoder.boolean false) <|
     .more (.withDefault "role" (Decoder.optional Decoder.string) none) .done)
    "struct ScriptDefinition"
    fun (name, title, kind, params, body, tree, titles, unrunnable, role, ()) =>
      { name, title, kind, params, body, tree, titles, unrunnable, role }

def decoder : Decoder σ Definition := decoderOf Node.decoder

end Definition

end ScriptRunner.Script
