import ScriptRunner.Files
import ScriptRunner.Json.Format
import ScriptRunner.Json.Printer
import ScriptRunner.Task.Record
import ScriptRunner.Text.Blank
import ScriptRunner.Text.Line

/-!
# Records of ended tasks

The last record of a task is kept in memory or as a line of a file, which is made with its directories when the first
record is written. Reading the file back skips blank lines; a file that is not there holds no record.
-/

namespace ScriptRunner

open Text (Bytes)

/-- Why a record is not kept or not read back. -/
inductive StorageError where
  | io (detail : String)
  | serialization (detail : String)
  deriving DecidableEq, Repr

def StorageError.message : StorageError → String
  | .io detail => s!"I/O error: {detail}"
  | .serialization detail => s!"Serialization error: {detail}"

/-- A place for records with states of type `τ`: what keeping a record came to, and the state after it. -/
structure TraceStore (τ : Type) where
  record : Task → τ → Except StorageError Unit × τ

/-- Keeps records in memory, oldest first. -/
def TraceStore.memory : TraceStore (List Task) := ⟨fun t kept => (.ok (), kept ++ [t])⟩

/-- The state of a trace store after it was asked to keep some records. -/
def TraceStore.recordAll {τ : Type} (store : TraceStore τ) (traces : τ) (ts : List Task) : τ :=
  ts.foldl (fun traces t => (store.record t traces).2) traces

namespace TraceFile

/-- The line of a record. -/
def line (t : Task) : Bytes := Text.encodeUtf8 (t.json.compact ++ "\n")

/-- The records on the lines of a text. -/
def readLines (cs : List Char) : Except Failure (List Task) :=
  ((Text.lines cs).filter fun l => !l.all Text.isBlank).mapM (Json.decodeChars Task.decoder)

/-- The records in a file. -/
def load (content : Except FileFault Bytes) : Except StorageError (List Task) :=
  match readText content with
  | .error .notFound => .ok []
  | .error fault => .error (.io fault.message)
  | .ok text => (readLines text.toList).mapError fun f => .serialization f.message

/-- The file at a path among other files. -/
def store (path : String) : TraceStore FileTree where
  record t files :=
    match files.append path (line t) with
    | .ok files => (.ok (), files)
    | .error fault => (.error (.io fault.message), files)

end TraceFile

end ScriptRunner
