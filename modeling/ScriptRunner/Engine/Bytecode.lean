import ScriptRunner.Text.Utf8

/-!
# Compiled programs and the engines that run them

An engine turns program text into bytecode and runs bytecode of its own kind only. Before a program runs at all, its kind
is checked and its payload has to be text.
-/

namespace ScriptRunner

/-- A compiled program in the format of one engine. -/
structure Bytecode where
  engine : String
  payload : Text.Bytes
  deriving DecidableEq, Repr, Inhabited

/-- Why an engine does not compile or run a program. -/
inductive EngineError where
  | compilation (detail : String)
  | runtime (detail : String)
  | unsupportedFormat (expected actual : String)
  deriving DecidableEq, Repr

def EngineError.message : EngineError → String
  | .compilation detail => s!"Compilation failed: {detail}"
  | .runtime detail => s!"Runtime error: {detail}"
  | .unsupportedFormat expected actual => s!"Unsupported bytecode format: expected {expected}, got {actual}"

namespace ScriptEngine

/-- The kind of bytecode that generated programs are compiled to. -/
def kind : String := "javascript"

/-- Where a program is refused or breaks off. -/
inductive Fault where
  | compilation (detail : String)
  | runtime (detail : String)
  | input (detail : String)
  | output (detail : String)
  | foreignBytecode (engine : String)
  deriving DecidableEq, Repr

/-- The fault as an error of an engine. -/
def Fault.toEngineError : Fault → EngineError
  | .compilation detail => .compilation detail
  | .runtime detail => .runtime s!"Runtime error: {detail}"
  | .input detail => .runtime s!"Input preparation error: {detail}"
  | .output detail => .runtime s!"Output conversion error: {detail}"
  | .foreignBytecode engine => .unsupportedFormat kind engine

/-- The text of a program that may be run. -/
def programText (b : Bytecode) : Except Fault String :=
  if b.engine ≠ kind then .error (.foreignBytecode b.engine)
  else
    match Text.decodeUtf8 b.payload with
    | .ok text => .ok text
    | .error fault => .error (.input s!"Program is not UTF-8: {fault.message}")

end ScriptEngine

end ScriptRunner
