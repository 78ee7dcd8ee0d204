import ScriptRunner.Json.Value
import ScriptRunner.Document.Failure

/-!
# Documents and the formats they are written in

A document is what a reader found in a text: scalars, sequences and mappings, with `damaged` in the place where the text
stops making sense. Decoding follows the order of the text, so of a fault of type and a damage the earlier one is
reported. A `Format` says how the scalars of one notation answer when a typed value is asked of them.
-/

namespace ScriptRunner

inductive Document (σ : Type) where
  | scalar (value : σ)
  | sequence (items : List (Document σ))
  | mapping (entries : List (Document σ × Document σ))
  | damaged
  deriving Inhabited

namespace Document

variable {σ : Type}

mutual

/-- No part of the document is damaged. -/
def isWhole : Document σ → Bool
  | .scalar _ => true
  | .sequence items => areWhole items
  | .mapping entries => areWholeEntries entries
  | .damaged => false

def areWhole : List (Document σ) → Bool
  | [] => true
  | d :: ds => isWhole d && areWhole ds

def areWholeEntries : List (Document σ × Document σ) → Bool
  | [] => true
  | (k, v) :: es => isWhole k && isWhole v && areWholeEntries es

end

end Document

/-- How the scalars of a notation are taken for typed values, and how deep documents may nest. -/
class Format (σ : Type) where
  string : σ → Except Cause String
  boolean : σ → Except Cause Bool
  integer : IntRange → σ → Except Cause Int
  /-- The value of a field that takes any JSON value. -/
  value : σ → Except Cause Json
  /-- What a scalar is called when another kind of value is wanted. -/
  got : σ → Except Cause Got
  /-- The scalar stands for an optional value that is not there. -/
  isAbsent : σ → Bool
  /-- The scalar stands for a collection without parts. -/
  isVoid : σ → Bool
  /-- The name that one of the given alternatives is written as. -/
  variant : List String → Document σ → Except Cause String
  /-- A record may be written as the sequence of its fields. -/
  recordsAsSequences : Bool
  /-- Messages name the place of a failure. -/
  showsPath : Bool
  /-- How many collections may lie within each other. -/
  depthLimit : Nat

/-- The message of a failure as the format words it. -/
def Format.message (σ : Type) [Format σ] (f : Failure) : String :=
  if Format.showsPath σ then f.messageWithPath else f.message

end ScriptRunner
