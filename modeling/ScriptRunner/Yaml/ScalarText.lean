import ScriptRunner.Number.FixedWidth
import ScriptRunner.Yaml.Cursor

/-!
# The text of YAML scalars

Plain and quoted scalars may run over several lines: one line break folds into a space, further ones stay. Block scalars
keep their lines (`|`) or fold them (`>`), and their header says what happens to the breaks at their end.
-/

namespace ScriptRunner.Yaml

/-- Reads a scalar, or finds that the text breaks the grammar. -/
abbrev ScanResult := Option (List Char × Cursor)

/-- What lies between two words of a scalar. -/
structure Gap where
  /-- Blanks on the line of the first word. -/
  blanks : List Char
  /-- The first line break. -/
  first : List Char
  /-- The breaks of empty lines. -/
  more : List Char
  /-- A line has been ended. -/
  broken : Bool

namespace Gap

def empty : Gap := ⟨[], [], [], false⟩

/-- What the gap contributes to the text. -/
def text (g : Gap) : List Char :=
  if g.broken then
    if g.first = ['\n'] then if g.more.isEmpty then [' '] else g.more else g.first ++ g.more
  else g.blanks

end Gap

/-- Passes blanks and line breaks; a tab left of the given column on a new line breaks the grammar. -/
def scanGap (tabLimit : Int) : Nat → Gap → Cursor → Option (Gap × Cursor)
  | 0, _, _ => none
  | fuel + 1, g, c =>
    match c.peek? with
    | none => some (g, c)
    | some x =>
      if isGap x then
        if g.broken then
          if x = '\t' ∧ (c.column : Int) < tabLimit then none else scanGap tabLimit fuel g (c.skip 1)
        else scanGap tabLimit fuel { g with blanks := g.blanks ++ [x] } (c.skip 1)
      else if isBreak x then
        if g.broken then scanGap tabLimit fuel { g with more := g.more ++ c.breakText } c.skipBreak
        else scanGap tabLimit fuel { g with blanks := [], first := c.breakText, broken := true } c.skipBreak
      else some (g, c)

/-! ## Plain scalars -/

/-- The characters of a word up to a blank or a character that ends a plain scalar. -/
def plainWord (inFlow : Bool) : List Char → Option (List Char × List Char)
  | [] => some ([], [])
  | x :: r =>
    if isGap x || isBreak x then some ([], x :: r)
    else
      let next := r.head?
      if x = ':' && inFlow && next.any (fun y => [',', '?', '[', ']', '\x7b', '\x7d'].contains y) then none
      else if x = ':' && next.all (fun y => isGap y || isBreak y) then some ([], x :: r)
      else if inFlow && [',', '[', ']', '\x7b', '\x7d'].contains x then some ([], x :: r)
      else (plainWord inFlow r).map fun (w, r) => (x :: w, r)

/-- A plain scalar, and whether the cursor is on a new line after it. -/
def scanPlain (inFlow : Bool) (indent : Int) : Nat → Gap → List Char → Cursor → Option (List Char × Bool × Cursor)
  | 0, _, _, _ => none
  | fuel + 1, g, text, c =>
    if c.atDocumentMark '-' || c.atDocumentMark '.' || c.startsWith '#' then some (text, g.broken, c)
    else
      match plainWord inFlow c.rest with
      | none => none
      | some (word, _) =>
        let c := c.skip word.length
        let (text, g) := if word.isEmpty then (text, g) else (text ++ g.text ++ word, Gap.empty)
        if !(c.atGap || c.atBreak) then some (text, g.broken, c)
        else
          match scanGap indent (c.rest.length + 1) g c with
          | none => none
          | some (g, c) =>
            if !inFlow && (c.column : Int) < indent then some (text, g.broken, c)
            else scanPlain inFlow indent fuel g text c

/-! ## Quoted scalars -/

/-- The number that so many hexadecimal digits denote, with the text after them. -/
def hexNumber? (count : Nat) (cs : List Char) : Option (Nat × List Char) :=
  let ds := cs.take count
  if ds.length = count then
    (ds.foldlM (fun n d => (digitValue? 16 d).map (16 * n + ·)) 0).map fun n => (n, cs.drop count)
  else none

/-- The characters that an escape stands for, and how many characters it takes after the backslash. -/
def unescape? : List Char → Option (List Char × Nat)
  | '0' :: _ => some (['\x00'], 1)
  | 'a' :: _ => some (['\x07'], 1)
  | 'b' :: _ => some (['\x08'], 1)
  | 't' :: _ => some (['\t'], 1)
  | '\t' :: _ => some (['\t'], 1)
  | 'n' :: _ => some (['\n'], 1)
  | 'v' :: _ => some (['\x0b'], 1)
  | 'f' :: _ => some (['\x0c'], 1)
  | 'r' :: _ => some (['\r'], 1)
  | 'e' :: _ => some (['\x1b'], 1)
  | ' ' :: _ => some ([' '], 1)
  | '"' :: _ => some (['"'], 1)
  | '/' :: _ => some (['/'], 1)
  | '\\' :: _ => some (['\\'], 1)
  | 'N' :: _ => some (['\u0085'], 1)
  | '_' :: _ => some (['\u00a0'], 1)
  | 'L' :: _ => some (['\u2028'], 1)
  | 'P' :: _ => some (['\u2029'], 1)
  | 'x' :: r => numbered 2 r
  | 'u' :: r => numbered 4 r
  | 'U' :: r => numbered 8 r
  | _ => none
where
  numbered (count : Nat) (r : List Char) : Option (List Char × Nat) :=
    match hexNumber? count r with
    | some (n, _) =>
      if n.isValidChar then some ([Char.ofNat n], count + 1) else none
    | none => none

/-- Why a word of a quoted scalar ended. -/
inductive WordEnd where
  | quote
  | gap
  /-- After a backslash at the end of a line, which joins the lines without a space. -/
  | joined

def quotedWord (single : Bool) : Nat → List Char → Cursor → Option (List Char × WordEnd × Cursor)
  | 0, _, _ => none
  | fuel + 1, text, c =>
    match c.rest with
    | [] => some (text, .gap, c)
    | x :: r =>
      if isGap x || isBreak x then some (text, .gap, c)
      else if single then
        if x = '\'' then
          match r with
          | '\'' :: _ => quotedWord single fuel (text ++ ['\'']) (c.skip 2)
          | _ => some (text, .quote, c)
        else quotedWord single fuel (text ++ [x]) (c.skip 1)
      else if x = '"' then some (text, .quote, c)
      else if x = '\\' then
        if r.head?.any isBreak then some (text, .joined, (c.skip 1).skipBreak)
        else
          match unescape? r with
          | none => none
          | some (cs, n) => quotedWord single fuel (text ++ cs) (c.skip (n + 1))
      else quotedWord single fuel (text ++ [x]) (c.skip 1)

/-- A quoted scalar after its opening quote. -/
def scanQuoted (single : Bool) : Nat → List Char → Cursor → ScanResult
  | 0, _, _ => none
  | fuel + 1, text, c =>
    if c.atDocumentMark '-' || c.atDocumentMark '.' || c.atEnd then none
    else
      match quotedWord single (c.rest.length + 1) text c with
      | none => none
      | some (text, .quote, c) => some (text, c.skip 1)
      | some (text, ending, c) =>
        let g := match ending with
          | .joined => { Gap.empty with broken := true }
          | _ => Gap.empty
        match scanGap (-1) (c.rest.length + 1) g c with
        | none => none
        | some (g, c) => scanQuoted single fuel (text ++ g.text) c

/-! ## Block scalars -/

/-- Passes the empty lines and the indentation in front of a line; an indentation of 0 is not known yet. -/
def blockBreaks (indent : Nat) : Nat → Nat → List Char → Cursor → Option (Nat × List Char × Cursor)
  | 0, _, _, _ => none
  | fuel + 1, widest, breaks, c =>
    let spaces := (c.rest.takeWhile (· = ' ')).length
    let c := c.skip (if indent = 0 then spaces else min spaces (indent - c.column))
    let widest := max widest c.column
    if (indent = 0 || c.column < indent) && c.startsWith '\t' then none
    else if c.atBreak then blockBreaks indent fuel widest (breaks ++ c.breakText) c.skipBreak
    else some (widest, breaks, c)

/-- The lines of a block scalar: text so far, the break that ended the last line, the breaks of empty lines after it, and
whether the last line started with a blank. -/
def blockLines (literal : Bool) (indent : Nat) :
    Nat → List Char → List Char → List Char → Bool → Cursor → Option (List Char × List Char × List Char × Cursor)
  | 0, _, _, _, _, _ => none
  | fuel + 1, text, ending, breaks, afterBlank, c =>
    if c.column ≠ indent ∨ c.atEnd then some (text, ending, breaks, c)
    else
      let blank := c.atGap
      let joint :=
        if !literal && ending = ['\n'] && !afterBlank && !blank then if breaks.isEmpty then [' '] else []
        else ending
      let (line, c) := c.skipWhile fun x => !isBreak x
      let ending := c.breakText
      match blockBreaks indent (c.rest.length + 2) 0 [] c.skipBreak with
      | none => none
      | some (_, more, c) => blockLines literal indent fuel (text ++ joint ++ breaks ++ line) ending more blank c

/-- How the breaks at the end of a block scalar are kept. -/
inductive Chomping where
  | strip
  | clip
  | keep

/-- The chomping and the indentation that the header of a block scalar gives. -/
def blockHeader (c : Cursor) : Option (Chomping × Nat × Cursor) :=
  let chomping (c : Cursor) : Chomping × Cursor :=
    match c.peek? with
    | some '+' => (.keep, c.skip 1)
    | some '-' => (.strip, c.skip 1)
    | _ => (.clip, c)
  let digit (c : Cursor) : Option (Nat × Cursor) :=
    match c.peek? with
    | some x => if x.isDigit then if x = '0' then none else some (x.toNat - '0'.toNat, c.skip 1) else some (0, c)
    | none => some (0, c)
  match c.peek? with
  | some x =>
    if x.isDigit then (digit c).map fun (n, c) => let (k, c) := chomping c; (k, n, c)
    else let (k, c) := chomping c; (digit c).map fun (n, c) => (k, n, c)
  | none => some (.clip, 0, c)

/-- A block scalar after its indicator, in a block with the given indentation. -/
def scanBlock (literal : Bool) (parent : Int) (c : Cursor) : ScanResult := do
  let (chomping, increment, c) ← blockHeader c
  let (_, c) := c.skipWhile isGap
  let c := if c.startsWith '#' then (c.skipWhile fun x => !isBreak x).2 else c
  if !(c.atEnd || c.atBreak) then none
  else
    let c := c.skipBreak
    let given := if increment = 0 then 0 else if 0 ≤ parent then (parent + increment).toNat else increment
    let (widest, breaks, c) ← blockBreaks given (c.rest.length + 2) 0 [] c
    let indent := if given = 0 then max widest (max (parent + 1).toNat 1) else given
    let (text, ending, breaks, c) ← blockLines literal indent (c.rest.length + 2) [] [] breaks false c
    match chomping with
    | .strip => some (text, c)
    | .clip => some (text ++ ending, c)
    | .keep => some (text ++ ending ++ breaks, c)

end ScriptRunner.Yaml
