import ScriptRunner.Script.Binding
import ScriptRunner.Script.Identifier
import ScriptRunner.Script.Program

/-!
# From trees to programs

A node compiles to a call of the function that its definition and its children give; disabled nodes and free fragments
give no call. Children come first, and their calls take the place of the placeholder in the body, each on a line of its
own. Nodes are taken in the order of the tree, and the first node without a definition, or with a value that cannot be
bound, ends the compilation.
-/

namespace ScriptRunner.Script

/-- The body with the calls of the children in place of every placeholder, in one pass. -/
def fillBody (children : List Char) : List Char → List Char
  | '%' :: 'b' :: 'o' :: 'd' :: 'y' :: '%' :: r => children ++ fillBody children r
  | c :: r => c :: fillBody children r
  | [] => []

def hasPlaceholder : List Char → Bool
  | '%' :: 'b' :: 'o' :: 'd' :: 'y' :: '%' :: _ => true
  | _ :: r => hasPlaceholder r
  | [] => false

/-- The calls of children, one a line. -/
def callLines (calls : List Call) : List Char :=
  Text.joinLines (calls.map fun c => c.text.toList)

/-- The body of a template with its children. -/
def templateBody (d : Definition) (children : List Call) : String :=
  String.ofList (fillBody (callLines children) d.body.toList)

/-- Raw code with its children, which follow on a new line where no placeholder shows their place. -/
def rawBody (code : String) (children : List Call) : String :=
  let cs := code.toList
  let lines := callLines children
  if hasPlaceholder cs then String.ofList (fillBody lines cs)
  else if lines.isEmpty then code
  else String.ofList (cs ++ '\n' :: lines)

def boundTo? (bound : List (String × BoundValue)) (name : String) : Option BoundValue :=
  (bound.find? fun b => b.1 == name).map Prod.snd

/-- The code of a raw source: its bound value where the definition declares it, else the trimmed raw value. -/
def rawCode (values : Dict String) (bound : List (String × BoundValue)) : String :=
  match boundTo? bound sourceParam with
  | some v => v.asText
  | none => Text.trim ((values.find? sourceParam).getD "")

/-- A raw source that is a free fragment: its bound value says so where the definition declares it, else `1` or
`true`. -/
def isInline (values : Dict String) (bound : List (String × BoundValue)) : Bool :=
  match boundTo? bound inlineParam with
  | some v => v.isTrue
  | none =>
    match (values.find? inlineParam).map Text.trim with
    | some v => v == "1" || v == "true"
    | none => false

/-- The call of a node whose children have been compiled, and the program with its function. -/
def linkNode (d : Definition) (values : Dict String) (bound : List (String × BoundValue)) (children : List Call)
    (p : Program) : Call × Program :=
  let base := identifier d.name
  if d.isRawSource then
    let (name, p) := p.linkRaw base (rawBody (rawCode values bound) children)
    (⟨name, []⟩, p)
  else
    let (name, p) := p.linkTemplate base (bound.map fun b => identifier b.1) (templateBody d children)
    (⟨name, bound.map fun b => b.2.literal⟩, p)

mutual

/-- The call of a node, if it gives one, and the program after it. -/
def compileNode (find? : String → Option Definition) :
    Node → Program → Except CompileError (Option Call × Program)
  | ⟨name, values, children, disabled⟩, p =>
    if disabled then .ok (none, p)
    else
      match find? name with
      | none => .error (.unknownScript name)
      | some d =>
        match bindParams d values with
        | .error e => .error e
        | .ok bound =>
          if d.isRawSource && isInline values bound then .ok (none, p.addFragment (rawCode values bound))
          else
            match compileNodes find? children p with
            | .error e => .error e
            | .ok (calls, p) =>
              let (call, p) := linkNode d values bound calls p
              .ok (some call, p)

/-- The calls of a list of nodes in their order, and the program after them. -/
def compileNodes (find? : String → Option Definition) :
    List Node → Program → Except CompileError (List Call × Program)
  | [], p => .ok ([], p)
  | n :: ns, p =>
    match compileNode find? n p with
    | .error e => .error e
    | .ok (call, p) =>
      match compileNodes find? ns p with
      | .error e => .error e
      | .ok (calls, p) => .ok (call.toList ++ calls, p)

end

/-- The calls of the top level and the program they need. -/
def generate (find? : String → Option Definition) (tree : List Node) : Except CompileError (List Call × Program) :=
  compileNodes find? tree .empty

/-- The program text for a tree. -/
def compile (find? : String → Option Definition) (tree : List Node) : Except CompileError String :=
  (generate find? tree).map fun (calls, p) => p.text (calls.map Call.text)

end ScriptRunner.Script
