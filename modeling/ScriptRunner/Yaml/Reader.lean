import ScriptRunner.Document.Basic
import ScriptRunner.Yaml.Token

/-!
# Reading YAML text

The tokens of the first document of a text become a document; an alias stands for the node that its anchor marks. What
follows the first document makes the text overrun.
-/

namespace ScriptRunner.Yaml

/-- A scalar with its style and its tag. -/
structure Scalar where
  text : String
  style : ScalarStyle
  tag : Option String
  deriving DecidableEq, Repr

namespace Scalar

/-- What stands where nothing is written. -/
def blank : Scalar := ⟨"", .plain, none⟩

end Scalar

/-- A scalar, or the content of a text without a document. -/
inductive Content where
  | scalar (s : Scalar)
  | nothing
  deriving DecidableEq, Repr

abbrev Written := Document Content

def blankNode : Written := .scalar (.scalar .blank)

/-- The nodes that anchors mark, the latest first. -/
abbrev Anchors := List (List Char × Written)

/-- Tokens that are left, with the anchors so far. -/
structure Rest where
  tokens : List Token
  anchors : Anchors

namespace Rest

def peek (r : Rest) : Token := r.tokens.head?.getD .fault

def skip (r : Rest) : Rest := { r with tokens := r.tokens.drop 1 }

/-- Nothing can be read any more. -/
def stop (r : Rest) : Rest := { r with tokens := [.fault] }

end Rest

/-- The full name of a tag; nothing for a handle that has no meaning. -/
def resolveTag (handles : List (List Char × List Char)) (t : TagText) : Option String :=
  if t.handle.isEmpty then some (String.ofList t.suffix)
  else
    match handles.find? fun h => h.1 == t.handle with
    | some h => some (String.ofList (h.2 ++ t.suffix))
    | none =>
      if t.handle = ['!'] then some (String.ofList ('!' :: t.suffix))
      else if t.handle = ['!', '!'] then some ("tag:yaml.org,2002:" ++ String.ofList t.suffix)
      else none

/-- The anchor and the tag in front of a node, and whether both make sense. -/
structure Properties where
  anchor : Option (List Char)
  tag : Option TagText

def readProperties (r : Rest) : Properties × Rest :=
  match r.peek with
  | .anchor a =>
    let r := r.skip
    match r.peek with
    | .tag t => (⟨some a, some t⟩, r.skip)
    | _ => (⟨some a, none⟩, r)
  | .tag t =>
    let r := r.skip
    match r.peek with
    | .anchor a => (⟨some a, some t⟩, r.skip)
    | _ => (⟨none, some t⟩, r)
  | _ => (⟨none, none⟩, r)

/-- Where a node stands decides which collections it may be. -/
structure Position where
  inBlock : Bool
  /-- A sequence may stand without indentation under its key. -/
  underKey : Bool

def inFlow : Position := ⟨false, false⟩

def inBlockSequence : Position := ⟨true, false⟩

def inBlockMapping : Position := ⟨true, true⟩

abbrev Handles := List (List Char × List Char)

mutual

def readNode (hs : Handles) : Nat → Position → Rest → Written × Rest
  | 0, _, r => (.damaged, r.stop)
  | fuel + 1, pos, r =>
    match r.peek with
    | .alias name =>
      match r.anchors.find? fun a => a.1 == name with
      | some a => (a.2, r.skip)
      | none => (.damaged, r.stop)
    | _ =>
      let (props, r) := readProperties r
      let tag? := props.tag.map (resolveTag hs)
      if tag? = some none then (.damaged, r.stop)
      else
        let tag := tag?.join
        let bare : Written × Rest :=
          if r.peek ≠ .fault && (props.anchor.isSome || props.tag.isSome) then (.scalar (.scalar ⟨"", .plain, tag⟩), r)
          else (.damaged, r.stop)
        let (d, r) : Written × Rest :=
          match r.peek with
          | .scalar text style => (.scalar (.scalar ⟨String.ofList text, style, tag⟩), r.skip)
          | .flowSequenceStart => let (ds, r) := readFlowItems hs fuel true r.skip; (.sequence ds, r)
          | .flowMappingStart => let (es, r) := readFlowEntries hs fuel true r.skip; (.mapping es, r)
          | .blockSequenceStart =>
            if pos.inBlock then let (ds, r) := readBlockItems hs fuel r.skip; (.sequence ds, r) else bare
          | .blockMappingStart =>
            if pos.inBlock then let (es, r) := readBlockEntries hs fuel r.skip; (.mapping es, r) else bare
          | .blockEntry =>
            if pos.underKey then let (ds, r) := readFlushItems hs fuel r; (.sequence ds, r) else bare
          | _ => bare
        match props.anchor with
        | some a => (d, { r with anchors := (a, d) :: r.anchors })
        | none => (d, r)

/-- A node, or a blank where a token that ends it follows. -/
def readOptional (hs : Handles) (ends : Token → Bool) : Nat → Position → Rest → Written × Rest
  | 0, _, r => (.damaged, r.stop)
  | fuel + 1, pos, r =>
    if r.peek = .fault then (.damaged, r.stop)
    else if ends r.peek then (blankNode, r)
    else readNode hs fuel pos r

/-- The items of a block sequence. -/
def readBlockItems (hs : Handles) : Nat → Rest → List Written × Rest
  | 0, r => ([.damaged], r.stop)
  | fuel + 1, r =>
    match r.peek with
    | .blockEntry =>
      let (d, r) := readOptional hs (fun t => t = .blockEntry || t = .blockEnd) fuel inBlockSequence r.skip
      let (ds, r) := readBlockItems hs fuel r
      (d :: ds, r)
    | .blockEnd => ([], r.skip)
    | _ => ([.damaged], r.stop)

/-- The items of a sequence that is not indented under its key. -/
def readFlushItems (hs : Handles) : Nat → Rest → List Written × Rest
  | 0, r => ([.damaged], r.stop)
  | fuel + 1, r =>
    match r.peek with
    | .blockEntry =>
      let (d, r) := readOptional hs (fun t => t = .blockEntry || t = .key || t = .value || t = .blockEnd) fuel
        inBlockSequence r.skip
      let (ds, r) := readFlushItems hs fuel r
      (d :: ds, r)
    | .fault => ([.damaged], r.stop)
    | _ => ([], r)

/-- The entries of a block mapping. -/
def readBlockEntries (hs : Handles) : Nat → Rest → List (Written × Written) × Rest
  | 0, r => ([(.damaged, .damaged)], r.stop)
  | fuel + 1, r =>
    let ends : Token → Bool := fun t => t = .key || t = .value || t = .blockEnd
    match r.peek with
    | .key =>
      let (k, r) := readOptional hs ends fuel inBlockMapping r.skip
      match r.peek with
      | .value =>
        let (v, r) := readOptional hs ends fuel inBlockMapping r.skip
        let (es, r) := readBlockEntries hs fuel r
        ((k, v) :: es, r)
      | .fault => ([(k, .damaged)], r.stop)
      | _ =>
        let (es, r) := readBlockEntries hs fuel r
        ((k, blankNode) :: es, r)
    | .blockEnd => ([], r.skip)
    | _ => ([(.damaged, .damaged)], r.stop)

/-- The items of a flow sequence, the first of which needs no comma before it. -/
def readFlowItems (hs : Handles) : Nat → Bool → Rest → List Written × Rest
  | 0, _, r => ([.damaged], r.stop)
  | fuel + 1, first, r =>
    if r.peek = .flowSequenceEnd then ([], r.skip)
    else if !first && r.peek ≠ .flowEntry then ([.damaged], r.stop)
    else
      let r := if first then r else r.skip
      match r.peek with
      | .flowSequenceEnd => ([], r.skip)
      | .key =>
        let r := r.skip
        let (k, r) : Written × Rest :=
          match r.peek with
          | .value => (blankNode, r.skip)
          | .flowEntry => (blankNode, r.skip)
          | .flowSequenceEnd => (blankNode, r.skip)
          | _ => readNode hs fuel inFlow r
        let (v, r) : Written × Rest :=
          match r.peek with
          | .value => readOptional hs (fun t => t = .flowEntry || t = .flowSequenceEnd) fuel inFlow r.skip
          | .fault => (.damaged, r.stop)
          | _ => (blankNode, r)
        if r.peek = .fault then ([.mapping [(k, v), (.damaged, .damaged)]], r.stop)
        else
          let (ds, r) := readFlowItems hs fuel false r
          (.mapping [(k, v)] :: ds, r)
      | _ =>
        let (d, r) := readNode hs fuel inFlow r
        let (ds, r) := readFlowItems hs fuel false r
        (d :: ds, r)

/-- The entries of a flow mapping, the first of which needs no comma before it. -/
def readFlowEntries (hs : Handles) : Nat → Bool → Rest → List (Written × Written) × Rest
  | 0, _, r => ([(.damaged, .damaged)], r.stop)
  | fuel + 1, first, r =>
    if r.peek = .flowMappingEnd then ([], r.skip)
    else if !first && r.peek ≠ .flowEntry then ([(.damaged, .damaged)], r.stop)
    else
      let r := if first then r else r.skip
      match r.peek with
      | .flowMappingEnd => ([], r.skip)
      | .key =>
        let (k, r) := readOptional hs (fun t => t = .value || t = .flowEntry || t = .flowMappingEnd) fuel inFlow r.skip
        let (v, r) :=
          match r.peek with
          | .value => readOptional hs (fun t => t = .flowEntry || t = .flowMappingEnd) fuel inFlow r.skip
          | .fault => (.damaged, r.stop)
          | _ => (blankNode, r)
        let (es, r) := readFlowEntries hs fuel false r
        ((k, v) :: es, r)
      | _ =>
        let (k, r) := readNode hs fuel inFlow r
        let v : Written := if r.peek = .fault then .damaged else blankNode
        let (es, r) := readFlowEntries hs fuel false r
        ((k, v) :: es, r)

end

/-! ## Documents -/

/-- The directives in front of a document; none after a fault among them. -/
def readDirectives : List Token → Handles → Bool → Option (Handles × Bool × List Token)
  | .versionDirective major minor :: ts, hs, seen =>
    if seen || major ≠ 1 || (minor ≠ 1 && minor ≠ 2) then none else readDirectives ts hs true
  | .tagDirective handle expansion :: ts, hs, seen =>
    if hs.any fun h => h.1 == handle then none else readDirectives ts ((handle, expansion) :: hs) seen
  | ts, hs, seen => some (hs, seen || !hs.isEmpty, ts)

/-- The content of a document and the tokens after it. Only a document with a mark at its start may be empty. -/
def readDocument (hs : Handles) (marked : Bool) (ts : List Token) : Written × List Token :=
  match marked, ts with
  | true, .documentStart :: _ | true, .documentEnd :: _ | true, .streamEnd :: _ | true, .versionDirective _ _ :: _
  | true, .tagDirective _ _ :: _ => (blankNode, ts)
  | _, ts =>
    let (d, r) := readNode hs (4 * ts.length + 4) inBlockSequence ⟨ts, []⟩
    (d, r.tokens)

/-- The first document of a text, and whether anything follows it. -/
def read (cs : List Char) : Written × Bool :=
  let finish (r : Written × List Token) : Written × Bool :=
    (r.1, (r.2.dropWhile (· = .documentEnd)).head? ≠ some .streamEnd)
  match readDirectives (tokens cs) [] false with
  | none => (.damaged, false)
  | some (hs, directives, ts) =>
    match ts with
    | .streamEnd :: _ => if directives then (.damaged, false) else (.scalar .nothing, false)
    | .fault :: _ => (.damaged, false)
    | ts =>
      match ts, directives with
      | .documentStart :: ts, _ => finish (readDocument hs true ts)
      | _, true => (.damaged, false)
      | ts, false => finish (readDocument hs false ts)

end ScriptRunner.Yaml
