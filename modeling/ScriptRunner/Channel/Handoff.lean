import ScriptRunner.Channel.Envelope
import ScriptRunner.Channel.Failure
import ScriptRunner.Channel.Frame
import ScriptRunner.Engine.Bytecode
import ScriptRunner.Json.Format
import ScriptRunner.Json.Printer
import ScriptRunner.Text.Base64
import ScriptRunner.Text.Line

/-!
# The handoff of a job

The job of a process is two lines, each an envelope with one frame: the header, then the program. Blank lines are
skipped; nothing else may follow.
-/

namespace ScriptRunner

open Text (Bytes)

/-- Why bytes are no job. -/
inductive HandoffError where
  | empty
  | notUtf8 (fault : Text.Utf8Fault)
  | missingFrame (what : HandoffFrame.Tag)
  | unreadableFrame (what : HandoffFrame.Tag) (failure : Failure)
  | versionMismatch (actual : UInt32)
  /-- The other frame stands in the place of this one. -/
  | otherFrame (what other : HandoffFrame.Tag)
  | unreadablePayload
  | trailingData

namespace HandoffError

/-- The fault as an error of the channel. -/
def toChannelError : HandoffError → ChannelError
  | empty => .invalidMessage "empty handoff"
  | notUtf8 fault => .deserialization s!"handoff is not UTF-8: {fault.message}"
  | missingFrame what => .invalidMessage s!"missing {what.name} frame"
  | unreadableFrame what failure => .deserialization s!"{what.name} frame: {failure.message}"
  | versionMismatch actual => .versionMismatch Envelope.currentVersion actual
  | otherFrame what other => .invalidMessage s!"expected {what.name} frame, got {other.name}"
  | unreadablePayload => .deserialization "bytecode payload: malformed"
  | trailingData => .invalidMessage "trailing data after bytecode frame"

def message (e : HandoffError) : String := e.toChannelError.message

end HandoffError

namespace Handoff

/-! ## Writing -/

/-- A frame as one line. -/
def frameLine (frame : HandoffFrame) (now : Instant) : String :=
  ((Envelope.wrap frame now).json HandoffFrame.json).compact

/-- The two lines of a job, written at the given times. -/
def encode (header : Header) (program : Bytecode) (headerTime programTime : Instant) : String :=
  frameLine (.header header) headerTime ++ "\n"
    ++ frameLine (.bytecode program.engine (Text.encodeBase64 program.payload)) programTime ++ "\n"

/-! ## Reading -/

/-- The lines that are not blank. -/
def writtenLines (cs : List Char) : List (List Char) :=
  (Text.lines cs).filter fun l => !l.all Text.isBlank

/-- The frame on the first line, and the other lines. -/
def readFrame (what : HandoffFrame.Tag) : List (List Char) → Except HandoffError (HandoffFrame × List (List Char))
  | [] => .error (.missingFrame what)
  | line :: rest =>
    match Json.decodeChars (Envelope.decoder HandoffFrame.decoder) line with
    | .error failure => .error (.unreadableFrame what failure)
    | .ok e => if e.isCompatible then .ok (e.message, rest) else .error (.versionMismatch e.version)

/-- The job on the lines that are not blank. -/
def readFrames (lines : List (List Char)) : Except HandoffError (Header × Bytecode) := do
  let (first, lines) ← readFrame .header lines
  let header ← match first with
    | .header header => .ok header
    | .bytecode _ _ => .error (.otherFrame .header .bytecode)
  let (second, lines) ← readFrame .bytecode lines
  let program ← match second with
    | .header _ => .error (.otherFrame .bytecode .header)
    | .bytecode engine payload =>
      match Text.decodeBase64? payload with
      | some payload => .ok ⟨engine, payload⟩
      | none => .error .unreadablePayload
  if lines.isEmpty then .ok (header, program) else .error .trailingData

/-- The job that bytes hold. -/
def decode (input : Bytes) : Except HandoffError (Header × Bytecode) :=
  match Text.decodeUtf8 input with
  | .error fault => .error (.notUtf8 fault)
  | .ok text => readFrames (writtenLines text.toList)

/-- The job on a stream that has been read to its end. -/
def read (input : Bytes) : Except HandoffError (Header × Bytecode) :=
  if input.isEmpty then .error .empty else decode input

end Handoff

end ScriptRunner
