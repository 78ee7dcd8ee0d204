import ScriptRunner.Files
import ScriptRunner.Script.Compilation
import ScriptRunner.Yaml.Format

/-!
# The scripts that are known

A registry holds definitions by name. It can be filled from a directory with one definition a file: only regular files
ending in `yaml` or `yml` count, in the order of their names, so of two definitions with one name the one in the later
file stays, whatever order the directory is listed in.
-/

namespace ScriptRunner.Script

structure Registry where
  definitions : Dict Definition

/-- Why a directory gives no registry. -/
inductive RegistryError where
  | cannotRead (path : String) (fault : FileFault)
  | invalidDefinition (path : String) (failure : Failure)
  | noName (path : String)

def RegistryError.message : RegistryError → String
  | .cannotRead path fault => s!"cannot read {path}: {fault.message}"
  | .invalidDefinition path failure => s!"invalid definition {path}: {failure.messageWithPath}"
  | .noName path => s!"definition in {path} has no name"

namespace Registry

def empty : Registry := ⟨.empty⟩

/-- Adds a definition in place of one with the same name. -/
def insert (r : Registry) (d : Definition) : Registry := ⟨r.definitions.insert d.name d⟩

def ofList (ds : List Definition) : Registry := ds.foldl insert empty

/-- The definitions that are known without any file. -/
def builtins : List Definition := [Definition.rawSource "source" "Source code"]

def withBuiltins : Registry := ofList builtins

def find? (r : Registry) (name : String) : Option Definition := r.definitions.find? name

def names (r : Registry) : List String := r.definitions.keys

def size (r : Registry) : Nat := r.definitions.size

/-- The program text for a tree of scripts in the registry. -/
def compile (r : Registry) (tree : List Node) : Except CompileError String := Script.compile r.find? tree

/-! ## From a directory -/

/-- The files of a listing that hold definitions, in the order of their names. -/
def definitionFiles (listing : Listing) : List (String × Except FileFault Text.Bytes) :=
  let files := listing.filterMap fun
    | (name, .file content) =>
      if extension? name = some "yaml" || extension? name = some "yml" then some (name, content) else none
    | _ => none
  files.mergeSort fun a b => a.1 ≤ b.1

/-- The definition in a file. -/
def readDefinition (path : String) (content : Except FileFault Text.Bytes) : Except RegistryError Definition :=
  match readText content with
  | .error fault => .error (.cannotRead path fault)
  | .ok text =>
    match Yaml.decodeText Definition.decoder text with
    | .error failure => .error (.invalidDefinition path failure)
    | .ok d => if Text.isBlankText d.name then .error (.noName path) else .ok d

/-- The built-in definitions and those of a directory. -/
def load (dir : String) (listing : Except FileFault Listing) : Except RegistryError Registry :=
  match listing with
  | .error fault => .error (.cannotRead dir fault)
  | .ok listing =>
    (definitionFiles listing).foldlM (fun r (name, content) =>
      (readDefinition (joinPath dir name) content).map r.insert) withBuiltins

end Registry

end ScriptRunner.Script
