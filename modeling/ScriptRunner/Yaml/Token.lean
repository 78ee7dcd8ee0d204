import ScriptRunner.Text.Utf8
import ScriptRunner.Yaml.ScalarText

/-!
# The tokens of YAML text

Indentation and the marks of flow collections become tokens. A scalar turns out to be a key only when a colon follows it
on the same line, so the token that announces a key is put in front of tokens that are there already; where the text
breaks the grammar, the tokens that still wait for such a decision are lost.
-/

namespace ScriptRunner.Yaml

inductive ScalarStyle where
  | plain
  | quoted
  | literal
  | folded
  deriving DecidableEq, Repr

/-- A tag by its handle and the rest of it. -/
structure TagText where
  handle : List Char
  suffix : List Char
  deriving DecidableEq, Repr

inductive Token where
  | versionDirective (major minor : Nat)
  | tagDirective (handle expansion : List Char)
  | documentStart
  | documentEnd
  | blockSequenceStart
  | blockMappingStart
  | blockEnd
  | flowSequenceStart
  | flowSequenceEnd
  | flowMappingStart
  | flowMappingEnd
  | blockEntry
  | flowEntry
  | key
  | value
  | alias (name : List Char)
  | anchor (name : List Char)
  | tag (text : TagText)
  | scalar (text : List Char) (style : ScalarStyle)
  | streamEnd
  /-- The text makes no sense from here on. -/
  | fault
  deriving DecidableEq, Repr, Inhabited

/-- A token that a colon may turn into a key. -/
structure KeyCandidate where
  possible : Bool
  /-- The block has to go on with a key here. -/
  required : Bool
  /-- How many tokens stand before it. -/
  position : Nat
  line : Nat
  column : Nat
  index : Nat

def KeyCandidate.none : KeyCandidate := ⟨false, false, 0, 0, 0, 0⟩

structure Scanner where
  cursor : Cursor
  /-- The length of the text, which bounds the steps within a token. -/
  bound : Nat
  /-- The columns of the open blocks, the innermost first; -1 stands for the stream. -/
  indents : List Int
  /-- The candidates of the open flow collections, the innermost first, and that of the block they stand in. -/
  candidates : List KeyCandidate
  /-- A key without a mark of its own may come next. -/
  keyAllowed : Bool
  /-- The tokens so far, the latest first, and how many they are. -/
  tokens : List Token
  count : Nat

namespace Scanner

def start (cs : List Char) : Scanner :=
  { cursor := .start (match cs with | '\ufeff' :: r => r | cs => cs)
    bound := cs.length
    indents := [-1]
    candidates := [.none]
    keyAllowed := true
    tokens := []
    count := 0 }

def indent (s : Scanner) : Int := s.indents.head?.getD (-1)

def inFlow (s : Scanner) : Bool := 1 < s.candidates.length

def add (s : Scanner) (t : Token) : Scanner := { s with tokens := t :: s.tokens, count := s.count + 1 }

def insertAt (s : Scanner) (position : Nat) (t : Token) : Scanner :=
  let later := s.count - position
  { s with tokens := s.tokens.take later ++ t :: s.tokens.drop later, count := s.count + 1 }

def advance (s : Scanner) (n : Nat) : Scanner := { s with cursor := s.cursor.skip n }

/-- The candidate is on an earlier line or too far back. -/
def isStale (s : Scanner) (k : KeyCandidate) : Bool :=
  k.possible && (k.line < s.cursor.line || k.index + 1024 < s.cursor.index)

/-- Gives up candidates that no colon can reach any more, unless one of them is required. -/
def dropStale (s : Scanner) : Option Scanner :=
  if s.candidates.any fun k => s.isStale k && k.required then none
  else some { s with candidates := s.candidates.map fun k => if s.isStale k then .none else k }

/-- Gives up the innermost candidate, unless it is required. -/
def dropCandidate (s : Scanner) : Option Scanner :=
  match s.candidates with
  | k :: ks => if k.possible && k.required then none else some { s with candidates := .none :: ks }
  | [] => some s

/-- Makes the next token a candidate, where keys are allowed. -/
def saveCandidate (s : Scanner) : Option Scanner :=
  if s.keyAllowed then do
    let required := !s.inFlow && s.indent = s.cursor.column
    let s ← s.dropCandidate
    let k : KeyCandidate := ⟨true, required, s.count, s.cursor.line, s.cursor.column, s.cursor.index⟩
    some { s with candidates := k :: s.candidates.drop 1 }
  else some s

/-- Opens a block at a column right of the current one; its token goes to the given position, else to the end. -/
def openBlock (s : Scanner) (column : Nat) (position : Option Nat) (t : Token) : Scanner :=
  if !s.inFlow && s.indent < column then
    let s := { s with indents := (column : Int) :: s.indents }
    match position with
    | some n => s.insertAt n t
    | none => s.add t
  else s

/-- Closes the blocks right of a column. -/
def closeBlocks (s : Scanner) (column : Int) : Scanner :=
  if s.inFlow then s
  else
    let closed := s.indents.takeWhile (column < ·)
    { s with
      indents := s.indents.drop closed.length
      tokens := List.replicate closed.length Token.blockEnd ++ s.tokens
      count := s.count + closed.length }

/-- Passes blanks, comments and line breaks. A byte order mark may start a line. -/
def toNextToken : Nat → Scanner → Scanner
  | 0, s => s
  | fuel + 1, s =>
    let tabs := s.inFlow || !s.keyAllowed
    let c := if s.cursor.column = 0 && s.cursor.startsWith '\ufeff' then s.cursor.skip 1 else s.cursor
    let c := (c.skipWhile fun x => x = ' ' || (tabs && x = '\t')).2
    let c := if c.startsWith '#' then (c.skipWhile fun x => !isBreak x).2 else c
    if c.atBreak then
      toNextToken fuel { s with cursor := c.skipBreak, keyAllowed := s.keyAllowed || !s.inFlow }
    else { s with cursor := c }

/-! ## Directives, anchors and tags -/

/-- The rest of a directive's line holds nothing but a comment. -/
def endOfDirective? (c : Cursor) : Option Cursor :=
  let c := (c.skipWhile isGap).2
  let c := if c.startsWith '#' then (c.skipWhile fun x => !isBreak x).2 else c
  if c.atEnd || c.atBreak then some c.skipBreak else none

def digitsAt? (c : Cursor) : Option (Nat × Cursor) :=
  let (ds, c) := c.skipWhile Char.isDigit
  if ds.isEmpty || 9 < ds.length then none else some (ds.foldl (fun n d => 10 * n + (d.toNat - '0'.toNat)) 0, c)

/-- A character that may stand for itself in a tag. -/
def isTagChar (verbatim : Bool) (c : Char) : Bool :=
  isNameChar c || [';', '/', '?', ':', '@', '&', '=', '+', '$', '.', '!', '~', '*', '\'', '(', ')'].contains c
    || (verbatim && [',', '[', ']'].contains c)

/-- The bytes of a tag, in which a byte may be written as `%` and two hexadecimal digits. -/
def tagBytes? : List Char → Option Text.Bytes
  | [] => some []
  | '%' :: a :: b :: cs => do
    let high ← digitValue? 16 a
    let low ← digitValue? 16 b
    return UInt8.ofNat (16 * high + low) :: (← tagBytes? cs)
  | '%' :: _ => none
  | c :: cs => do return Text.encodeUtf8 (String.singleton c) ++ (← tagBytes? cs)

/-- The text of a tag from here on. -/
def tagText? (verbatim : Bool) (c : Cursor) : Option (List Char × Cursor) := do
  let (written, c) := c.skipWhile fun x => isTagChar verbatim x || x = '%'
  match Text.decodeUtf8 (← tagBytes? written) with
  | .ok text => some (text.toList, c)
  | .error _ => none

def directive? (c : Cursor) : Option (Token × Cursor) := do
  let (name, c) := (c.skip 1).skipWhile isNameChar
  if name.isEmpty || !c.atSpaceAt 0 then none
  else
    let c := (c.skipWhile isGap).2
    if name = ['Y', 'A', 'M', 'L'] then
      let (major, c) ← digitsAt? c
      if !c.startsWith '.' then none
      else
        let (minor, c) ← digitsAt? (c.skip 1)
        let c ← endOfDirective? c
        some (.versionDirective major minor, c)
    else if name = ['T', 'A', 'G'] then
      if !c.startsWith '!' then none
      else
        let (handle, c) := (c.skip 1).skipWhile isNameChar
        let (handle, c) :=
          if c.startsWith '!' then ('!' :: handle ++ ['!'], c.skip 1) else ('!' :: handle, c)
        if 1 < handle.length && handle.getLast? != some '!' then none
        else if !c.atGap then none
        else
          let c := (c.skipWhile isGap).2
          let (expansion, c) ← tagText? true c
          if !c.atSpaceAt 0 then none
          else
            let c ← endOfDirective? c
            some (.tagDirective handle expansion, c)
    else none

/-- The name after the mark of an anchor or an alias. -/
def anchorName? (c : Cursor) : Option (List Char × Cursor) :=
  let (name, c) := (c.skip 1).skipWhile isNameChar
  if name.isEmpty then none
  else if c.atSpaceAt 0 || c.peek?.any (fun x => ['?', ':', ',', ']', '\x7d', '%', '@', '\u0060'].contains x) then
    some (name, c)
  else none

def tag? (inFlow : Bool) (c : Cursor) : Option (TagText × Cursor) :=
  let finish (t : TagText) (c : Cursor) : Option (TagText × Cursor) :=
    if c.atSpaceAt 0 || (inFlow && c.startsWith ',') then some (t, c) else none
  if c.peekAt? 1 == some '<' then do
    let (suffix, c) ← tagText? true (c.skip 2)
    if suffix.isEmpty || !c.startsWith '>' then none else finish ⟨[], suffix⟩ (c.skip 1)
  else
    let (name, d) := (c.skip 1).skipWhile isNameChar
    if d.startsWith '!' then do
      let (suffix, d) ← tagText? false (d.skip 1)
      if suffix.isEmpty then none else finish ⟨'!' :: name ++ ['!'], suffix⟩ d
    else do
      let (more, d) ← tagText? false d
      let suffix := name ++ more
      if suffix.isEmpty then finish ⟨[], ['!']⟩ d else finish ⟨['!'], suffix⟩ d

/-! ## Tokens -/

def scanDocumentMark (s : Scanner) (t : Token) : Option Scanner := do
  let s ← (s.closeBlocks (-1)).dropCandidate
  some { (s.advance 3).add t with keyAllowed := false }

def scanFlowStart (s : Scanner) (t : Token) : Option Scanner := do
  let s ← s.saveCandidate
  some { (s.advance 1).add t with candidates := .none :: s.candidates, keyAllowed := true }

def scanFlowEnd (s : Scanner) (t : Token) : Option Scanner := do
  let s ← s.dropCandidate
  some { (s.advance 1).add t with
    candidates := if s.inFlow then s.candidates.drop 1 else s.candidates
    keyAllowed := false }

def scanFlowEntry (s : Scanner) : Option Scanner := do
  let s ← s.dropCandidate
  some { (s.advance 1).add .flowEntry with keyAllowed := true }

def scanBlockEntry (s : Scanner) : Option Scanner := do
  if !s.inFlow && !s.keyAllowed then none
  else
    let s ← (s.openBlock s.cursor.column none .blockSequenceStart).dropCandidate
    some { (s.advance 1).add .blockEntry with keyAllowed := true }

def scanKey (s : Scanner) : Option Scanner := do
  if !s.inFlow && !s.keyAllowed then none
  else
    let s ← (s.openBlock s.cursor.column none .blockMappingStart).dropCandidate
    some { (s.advance 1).add .key with keyAllowed := !s.inFlow }

def scanValue (s : Scanner) : Option Scanner :=
  match s.candidates with
  | k :: ks =>
    if k.possible then
      let s := (s.insertAt k.position .key).openBlock k.column (some k.position) .blockMappingStart
      some { (s.advance 1).add .value with candidates := .none :: ks, keyAllowed := false }
    else if !s.inFlow && !s.keyAllowed then none
    else
      let s := s.openBlock s.cursor.column none .blockMappingStart
      some { (s.advance 1).add .value with keyAllowed := !s.inFlow }
  | [] => none

def scanScalar (s : Scanner) (style : ScalarStyle) (read : Cursor → ScanResult) : Option Scanner := do
  let (text, c) ← read s.cursor
  some { s.add (.scalar text style) with cursor := c }

/-- Scans one token, before which blocks may be opened and closed; nothing when the text breaks the grammar. -/
def step (s : Scanner) : Option Scanner := do
  let s ← (toNextToken (s.bound + 1) s).dropStale
  let s := s.closeBlocks s.cursor.column
  let c := s.cursor
  let fuel := s.bound + 2
  match c.peek? with
  | none =>
    let s ← (s.closeBlocks (-1)).dropCandidate
    some { s.add .streamEnd with cursor := s.cursor.endLine }
  | some x =>
    if c.column = 0 && x = '%' then
      let s ← (s.closeBlocks (-1)).dropCandidate
      let (t, c) ← directive? s.cursor
      some { s.add t with cursor := c, keyAllowed := false }
    else if c.atDocumentMark '-' then s.scanDocumentMark .documentStart
    else if c.atDocumentMark '.' then s.scanDocumentMark .documentEnd
    else if x = '[' then s.scanFlowStart .flowSequenceStart
    else if x = '\x7b' then s.scanFlowStart .flowMappingStart
    else if x = ']' then s.scanFlowEnd .flowSequenceEnd
    else if x = '\x7d' then s.scanFlowEnd .flowMappingEnd
    else if x = ',' then s.scanFlowEntry
    else if x = '-' && c.atSpaceAt 1 then s.scanBlockEntry
    else if x = '?' && (s.inFlow || c.atSpaceAt 1) then s.scanKey
    else if x = ':' && (s.inFlow || c.atSpaceAt 1) then s.scanValue
    else if x = '*' || x = '&' then
      let s ← s.saveCandidate
      let (name, c) ← anchorName? c
      some { s.add (if x = '*' then .alias name else .anchor name) with cursor := c, keyAllowed := false }
    else if x = '!' then
      let s ← s.saveCandidate
      let (t, c) ← tag? s.inFlow c
      some { s.add (.tag t) with cursor := c, keyAllowed := false }
    else if (x = '|' || x = '>') && !s.inFlow then
      let s ← s.dropCandidate
      let s ← s.scanScalar (if x = '|' then .literal else .folded) fun c => scanBlock (x = '|') s.indent (c.skip 1)
      some { s with keyAllowed := true }
    else if x = '\'' || x = '"' then
      let s ← s.saveCandidate
      let s ← s.scanScalar .quoted fun c => scanQuoted (x = '\'') fuel [] (c.skip 1)
      some { s with keyAllowed := false }
    else if !([' ', '\t', '-', '?', ':', ',', '[', ']', '\x7b', '\x7d', '#', '&', '*', '!', '|', '>', '\'', '"', '%',
          '@', '\u0060'].contains x)
        || (x = '-' && !(c.peekAt? 1).any isGap)
        || (!s.inFlow && (x = '?' || x = ':') && !c.atSpaceAt 1) then
      let s ← s.saveCandidate
      let (text, broken, c) ← scanPlain s.inFlow (s.indent + 1) fuel .empty [] c
      some { s.add (.scalar text .plain) with cursor := c, keyAllowed := broken }
    else none

/-- A key has to stand where the scanner has passed without a colon. -/
def lacksKey (s : Scanner) : Bool := s.candidates.any fun k => s.isStale k && k.required

/-- How many tokens there are in front of which nothing can be put any more. -/
def certain (s : Scanner) : Nat :=
  let waiting := s.candidates.filter fun k => k.possible && !s.isStale k
  waiting.foldl (fun n k => min n k.position) s.count

/-- The first tokens, after which the text makes no sense. -/
def breakOff (s : Scanner) (count : Nat) : List Token := s.tokens.reverse.take count ++ [.fault]

/-- All tokens, the last of which is the end of the stream or a fault. Where a key is lacking, what was scanned last is
lost with it, and only the tokens that were certain before are left. -/
def run : Nat → Nat → Scanner → List Token
  | 0, _, s => s.breakOff s.certain
  | fuel + 1, before, s =>
    let count := s.certain
    match s.step with
    | some t =>
      if t.tokens.head? == some .streamEnd then if t.lacksKey then t.breakOff count else t.tokens.reverse
      else run fuel count t
    | none => s.breakOff (if s.lacksKey then before else count)

end Scanner

/-- The tokens of a text. A character that no YAML text may hold spoils all of it. -/
def tokens (cs : List Char) : List Token :=
  let body := match cs with | '\ufeff' :: r => r | cs => cs
  if body.all isAllowed then Scanner.run (2 * cs.length + 4) 0 (.start cs) else [.fault]

end ScriptRunner.Yaml
