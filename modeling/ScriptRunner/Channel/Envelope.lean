import ScriptRunner.Time

/-!
# Envelopes

Every message between processes travels in an envelope with the version of the protocol and the time at which it was
written.
-/

namespace ScriptRunner

structure Envelope (α : Type) where
  version : UInt32
  timestamp : Instant
  message : α

namespace Envelope

variable {α : Type}

def currentVersion : UInt32 := 1

/-- The envelope of a message that is written now. -/
def wrap (message : α) (now : Instant) : Envelope α := ⟨currentVersion, now, message⟩

def isCompatible (e : Envelope α) : Bool := e.version == currentVersion

def json (message : α → Json) (e : Envelope α) : Json :=
  .object [("protocol_version", .int e.version.toNat), ("timestamp", .string e.timestamp.text),
    ("message", message e.message)]

variable {σ : Type} [Format σ]

def decoder (message : Decoder σ α) : Decoder σ (Envelope α) :=
  Fields.decoder
    (.more (.required "protocol_version" Decoder.uint32) <|
     .more (.required "timestamp" Instant.decoder) <|
     .more (.required "message" message) .done)
    "struct MessageEnvelope"
    fun (version, timestamp, message, ()) => { version, timestamp, message }

end Envelope

end ScriptRunner
