import ScriptRunner.Text.Utf8

/-!
# Files and directories

What the program reads from a directory, and why it may not be able to. The program itself never sees a disk: the command
line hands it the directory as a value.
-/

namespace ScriptRunner

open Text (Bytes)

/-- Why a file or a directory cannot be used. -/
inductive FileFault where
  | notFound
  | notADirectory
  | isADirectory
  | permissionDenied
  | exists
  | notUtf8
  | invalidName
  | invalidProgram
  | nameTooLong
  /-- Whatever else the machine reports. -/
  | other (text : String)
  deriving DecidableEq, Repr

def FileFault.message : FileFault → String
  | .notFound => "No such file or directory (os error 2)"
  | .notADirectory => "Not a directory (os error 20)"
  | .isADirectory => "Is a directory (os error 21)"
  | .permissionDenied => "Permission denied (os error 13)"
  | .exists => "File exists (os error 17)"
  | .notUtf8 => "stream did not contain valid UTF-8"
  | .invalidName => "file name contained an unexpected NUL byte"
  | .invalidProgram => "nul byte found in provided data"
  | .nameTooLong => "File name too long (os error 36)"
  | .other text => text

/-- What stands at a path. -/
inductive PathKind where
  | absent
  | directory
  | other
  deriving DecidableEq, Repr

/-- One name in a directory: a regular file with its content, or something else. -/
inductive DirEntry where
  | file (content : Except FileFault Bytes)
  | other

/-- A directory listing in the order in which the system gives it. -/
abbrev Listing := List (String × DirEntry)

/-- The text of a file. -/
def readText (content : Except FileFault Bytes) : Except FileFault String :=
  content >>= fun bytes =>
    match Text.decodeUtf8 bytes with
    | .ok s => .ok s
    | .error _ => .error .notUtf8

/-- What follows the last dot of a file name, unless the name starts with it. -/
def extension? (name : String) : Option String :=
  let back := name.toList.reverse
  let ext := back.takeWhile (· ≠ '.')
  match back.drop ext.length with
  | '.' :: _ :: _ => if name = ".." then none else some (String.ofList ext.reverse)
  | _ => none

/-- A path with a name added to it. -/
def joinPath (dir name : String) : String :=
  if name.startsWith "/" then name
  else if dir.isEmpty || dir.endsWith "/" then dir ++ name
  else dir ++ "/" ++ name

/-! ## Trees of files -/

inductive FileTree where
  | file (content : Bytes)
  | directory (entries : List (String × FileTree))
  deriving Inhabited

namespace FileTree

def empty : FileTree := .directory []

/-- The names on the way to a path, where two dots take the name before them back. -/
def steps (path : String) : List String :=
  (path.toList.splitOn '/').foldl (fun names s =>
    if s = [] ∨ s = ['.'] then names
    else if s = ['.', '.'] then names.dropLast
    else names ++ [String.ofList s]) []

/-- The entry of a directory with another one in place of those of its name. -/
def setEntry (name : String) (t : FileTree) (entries : List (String × FileTree)) : List (String × FileTree) :=
  entries.filter (fun e => e.1 != name) ++ [(name, t)]

/-- Puts a tree at a path; missing directories on the way are made. -/
def put (t : FileTree) : List String → FileTree → FileTree
  | [], _ => t
  | name :: rest, .directory entries =>
    let inner := ((entries.find? fun e => e.1 == name).map Prod.snd).getD empty
    .directory (setEntry name (put t rest inner) entries)
  | name :: rest, .file _ => .directory [(name, put t rest empty)]

/-- The tree with files and empty directories at the given paths. -/
def ofList (files : List (String × Option Bytes)) : FileTree :=
  files.foldl (fun t (path, content) => put ((content.map FileTree.file).getD empty) (steps path) t) empty

/-- What stands at a path. -/
def find : List String → FileTree → Except FileFault FileTree
  | [], t => .ok t
  | _ :: _, .file _ => .error .notADirectory
  | name :: rest, .directory entries =>
    match entries.find? fun e => e.1 == name with
    | some e => find rest e.2
    | none => .error .notFound

/-- What stands at a path. Nothing stands at the empty one, and only a directory at one that ends in a slash. -/
def lookup (t : FileTree) (path : String) : Except FileFault FileTree :=
  if path.isEmpty then .error .notFound
  else
    match t.find (steps path) with
    | .ok (.file content) => if path.endsWith "/" then .error .notADirectory else .ok (.file content)
    | r => r

def kindOf (t : FileTree) (path : String) : PathKind :=
  match t.lookup path with
  | .ok (.directory _) => .directory
  | .ok (.file _) => .other
  | .error _ => .absent

/-- The content of the file at a path. -/
def contentAt (t : FileTree) (path : String) : Except FileFault Bytes :=
  match t.lookup path with
  | .ok (.file content) => .ok content
  | .ok (.directory _) => .error .isADirectory
  | .error fault => .error fault

/-- Puts bytes in place of the content of the file at a path. A file that is not there is made in its directory, which has
to be there. -/
def replace (t : FileTree) (path : String) (bytes : Bytes) : Except FileFault FileTree :=
  let place := steps path
  match t.lookup path with
  | .ok (.file _) => .ok (put (.file bytes) place t)
  | .ok (.directory _) => .error .isADirectory
  | .error .notFound =>
    if path.isEmpty then .error .notFound
    else
      match t.find place.dropLast with
      | .ok (.directory _) => if path.endsWith "/" then .error .isADirectory else .ok (put (.file bytes) place t)
      | .ok (.file _) => .error .notADirectory
      | .error fault => .error fault
  | .error fault => .error fault

/-- Makes the directory at the given steps and those on the way to it. -/
def makeDirectory : List String → FileTree → Except FileFault FileTree
  | [], .directory entries => .ok (.directory entries)
  | [], .file _ => .error .exists
  | _ :: _, .file _ => .error .notADirectory
  | name :: rest, .directory entries =>
    let inner := ((entries.find? fun e => e.1 == name).map Prod.snd).getD empty
    (makeDirectory rest inner).map fun t => .directory (setEntry name t entries)

/-- Adds bytes to the file at a path, which is made if it is not there. A path that ends in a slash is that of a
directory. -/
def append (t : FileTree) (path : String) (bytes : Bytes) : Except FileFault FileTree := do
  let place := steps path
  let t ← makeDirectory place.dropLast t
  if path.endsWith "/" then .error .isADirectory
  else
    match t.find place with
    | .ok (.file content) => .ok (put (.file (content ++ bytes)) place t)
    | .ok (.directory _) => .error .isADirectory
    | .error .notFound => .ok (put (.file bytes) place t)
    | .error fault => .error fault

/-- The listing of the directory at a path. -/
def list (t : FileTree) (path : String) : Except FileFault Listing :=
  match t.lookup path with
  | .ok (.directory entries) => .ok (entries.map fun
      | (name, .file content) => (name, .file (.ok content))
      | (name, .directory _) => (name, .other))
  | .ok (.file _) => .error .notADirectory
  | .error fault => .error fault

end FileTree

end ScriptRunner
