import ScriptRunner.Text.Blank
import ScriptRunner.Text.Line

/-!
# Generated programs

A program grows while a tree is compiled: free fragments, functions with distinct names, and the table of template
bodies that are already there. Its text is the fragments, the functions in the order in which they came, and a block
that makes the calls of the top level.
-/

namespace ScriptRunner.Script

/-- A generated function; the body is its text before indentation. -/
structure Function where
  name : String
  parameters : List String
  body : String
  deriving DecidableEq, Repr

/-- A call of a generated function with the literals of its arguments. -/
structure Call where
  callee : String
  arguments : List String
  deriving DecidableEq, Repr

def Call.text (c : Call) : String :=
  c.callee ++ "(" ++ ", ".intercalate c.arguments ++ ");"

/-- What has been generated so far. -/
structure Program where
  fragments : List String
  functions : List Function
  /-- The function of each base name and body that templates have used. -/
  shared : List ((String × String) × String)
  /-- The last number that a suffix was tried with. -/
  counter : Nat
  deriving DecidableEq, Repr

namespace Program

def empty : Program := ⟨[], [], [], 0⟩

def functionNames (p : Program) : List String := p.functions.map Function.name

/-- A function of this name has been generated. -/
def isLinked (p : Program) (name : String) : Bool := p.functionNames.contains name

def suffixed (base : String) (n : Nat) : String := s!"{base}_{n}"

/-- The first number from `n` on whose suffix gives a name that is not among those given. -/
def freeSuffix (base : String) (names : List String) (n : Nat) : Nat :=
  if suffixed base n ∈ names then freeSuffix base (names.erase (suffixed base n)) (n + 1) else n
termination_by names.length
decreasing_by
  rename_i h
  have := List.length_pos_of_mem h
  rw [List.length_erase_of_mem h]
  omega

/-- Adds a function under the base name with the next free number. -/
def linkNumbered (p : Program) (base : String) (parameters : List String) (body : String) : String × Program :=
  let n := freeSuffix base p.functionNames (p.counter + 1)
  let name := suffixed base n
  (name, { p with functions := p.functions ++ [⟨name, parameters, body⟩], counter := n })

/-- Adds a function under the base name, with a number if the name is in use. -/
def linkNamed (p : Program) (base : String) (parameters : List String) (body : String) : String × Program :=
  if p.isLinked base then p.linkNumbered base parameters body
  else (base, { p with functions := p.functions ++ [⟨base, parameters, body⟩] })

/-- The function that templates of this base name and body share, if there is one. -/
def shared? (p : Program) (base body : String) : Option String :=
  (p.shared.find? fun e => e.1 == (base, body)).map Prod.snd

/-- The function for a template body, added unless the same base name and body have been used before. -/
def linkTemplate (p : Program) (base : String) (parameters : List String) (body : String) : String × Program :=
  match p.shared? base body with
  | some name => (name, p)
  | none =>
    let (name, p) := p.linkNamed base parameters body
    (name, { p with shared := p.shared ++ [((base, body), name)] })

/-- A function of its own for raw code; its name always has a number. -/
def linkRaw (p : Program) (base body : String) : String × Program :=
  p.linkNumbered base [] body

/-- Adds a fragment, which ends with one line feed. -/
def addFragment (p : Program) (code : String) : Program :=
  { p with fragments := p.fragments ++ [Text.trimEnd code ++ "\n"] }

end Program

/-! ## Text -/

def indentation : String := "    "

/-- A line behind the indentation; a blank one becomes empty. -/
def indentLine (line : List Char) : List Char :=
  if line.all Text.isBlank then [] else indentation.toList ++ line

def indent (text : List Char) : List Char :=
  Text.joinLines ((Text.lines text).map indentLine)

/-- The indented body of a function, without the line feeds at its ends. -/
def indentBody (body : String) : String :=
  String.ofList (indent (Text.strip (· = '\n') body.toList))

def Function.text (f : Function) : String :=
  let head := "function " ++ f.name ++ "(" ++ ", ".intercalate f.parameters ++ ") \x7b\n"
  let body := indentBody f.body
  if body.isEmpty then head ++ "\x7d\n" else head ++ body ++ "\n\x7d\n"

/-- The block that makes the calls, one a line. -/
def runBlock (calls : List String) : String :=
  "(function run() \x7b\n" ++ String.join (calls.map fun c => indentation ++ c ++ "\n") ++ "\x7d)();\n"

/-- The text of a program whose top level makes the given calls. -/
def Program.text (p : Program) (calls : List String) : String :=
  "\n".intercalate (p.fragments ++ p.functions.map Function.text ++ [runBlock calls])

end ScriptRunner.Script
