import ScriptRunner.Config.Loading
import ScriptRunner.Files

/-!
# The machine that the program runs on

The program asks a host for what it reads and hands it what it writes. A host is a record of operations of any monad, so
the same program runs on a real machine and on one whose files are a value.
-/

namespace ScriptRunner.CommandLine

structure Host (m : Type → Type) where
  environment : m Environment
  /-- All of the standard input. -/
  input : m Text.Bytes
  content : String → m (Except FileFault Text.Bytes)
  listing : String → m (Except FileFault Listing)
  kindOf : String → m PathKind
  /-- Puts bytes in place of the content of a file. -/
  store : String → Text.Bytes → m (Except FileFault Unit)

/-- A machine whose files are a value. -/
def Host.ofTree (environment : Environment) (input : Text.Bytes) : Host (StateM FileTree) where
  environment := pure environment
  input := pure input
  content path := do return (← get).contentAt path
  listing path := do return (← get).list path
  kindOf path := do return (← get).kindOf path
  store path bytes := do
    match (← get).replace path bytes with
    | .ok t =>
      set t
      return .ok ()
    | .error fault => return .error fault

end ScriptRunner.CommandLine
