import ScreenPilot.Files.Access
import ScreenPilot.Files.Path

/-!
# File trees

A file system as a value: files and directories below one root, to which every
question about files has an answer. A path leads from directory to directory,
so a file in the middle of a path, or before a slash at its end, is a fault.
The directory above the root is the root.
-/

set_option autoImplicit false

namespace ScreenPilot

/-- What a place in a file tree holds. -/
inductive FileEntry where
  | directory
  | file (content : ByteArray)

/-- A file tree: what stands at the end of each list of names. -/
structure FileTree where
  /-- The place where paths that do not begin with a slash start. -/
  start : List String
  entries : List (List String × FileEntry)

namespace FileTree

/-- The tree that holds nothing but its root. -/
def empty : FileTree := ⟨[], []⟩

/-- What stands at a place; a directory at the root. -/
def entry? (tree : FileTree) (place : List String) : Option FileEntry :=
  if place.isEmpty then some .directory else tree.entries.lookup place

/-- The tree with something else at a place. -/
def put (tree : FileTree) (place : List String) (entry : FileEntry) : FileTree :=
  { tree with
    entries := (place, entry) :: tree.entries.filter fun (other, _) => other ≠ place }

/-- The names in a directory. -/
def namesIn (tree : FileTree) (place : List String) : List String :=
  tree.entries.filterMap fun (other, _) =>
    if other.dropLast = place then other.getLast? else none

/-- The place where a path starts, and the pieces that lead on from there. The
empty path leads nowhere, and neither does one that is too long. -/
def course? (tree : FileTree) (path : String) : Option (List String × List String) :=
  if path = "" ∨ Path.longest < path.utf8ByteSize then none
  else some (if Path.isAbsolute path then [] else tree.start, Path.pieces path)

/-- The place a path leads to from a place. -/
def walk (tree : FileTree) (place : List String) : List String → Except FileFault (List String)
  | [] => .ok place
  | piece :: rest =>
    match tree.entry? place with
    | none => .error .missing
    | some (.file _) => .error .notDirectory
    | some .directory =>
      if piece = "" ∨ piece = "." then tree.walk place rest
      else if piece = ".." then tree.walk place.dropLast rest
      else if Path.isName piece then tree.walk (place ++ [piece]) rest
      else .error .badName

/-- What a path leads to. -/
def find (tree : FileTree) (path : String) : Except FileFault (List String × FileEntry) :=
  match tree.course? path with
  | none => .error .missing
  | some (start, pieces) => do
    let place ← tree.walk start pieces
    match tree.entry? place with
    | none => .error .missing
    | some entry => .ok (place, entry)

/-- The tree with directories for the pieces of a path that are missing. -/
def grow (tree : FileTree) (place : List String) : List String → Except FileFault FileTree
  | [] => .ok tree
  | piece :: rest =>
    if piece = "" ∨ piece = "." then tree.grow place rest
    else if piece = ".." then tree.grow place.dropLast rest
    else if ¬ Path.isName piece then .error .badName
    else
      let place := place ++ [piece]
      match tree.entry? place with
      | none => (tree.put place .directory).grow place rest
      | some .directory => tree.grow place rest
      | some (.file _) => .error .notDirectory

/-- The tree with the directories of a path; the empty path has none. A path that
ends by staying in place makes nothing, so it must lead to a directory. -/
def makeDirectories (tree : FileTree) (path : String) : Except FileFault FileTree :=
  if path = "" then .ok tree
  else if Path.staysAtEnd path then do
    match (← tree.find path).2 with
    | .directory => .ok tree
    | .file _ => .error .notDirectory
  else
    match tree.course? path with
    | none => .error .missing
    | some (start, pieces) => tree.grow start pieces

/-- The place of a file that is to be written at a path. -/
def filePlace (tree : FileTree) (path : String) : Except FileFault (List String) :=
  match tree.course? path with
  | none => .error .missing
  | some (start, pieces) => do
    let place ← tree.walk start pieces.dropLast
    let name := pieces.getLast?.getD ""
    match tree.entry? place with
    | none => .error .missing
    | some (.file _) => .error .notDirectory
    | some .directory =>
      if name = "" ∨ name = "." ∨ name = ".." then .error .isDirectory
      else if ¬ Path.isName name then .error .badName
      else
        match tree.entry? (place ++ [name]) with
        | some .directory => .error .isDirectory
        | _ => .ok (place ++ [name])

/-- The tree with a file written. -/
def write (tree : FileTree) (path : String) (content : ByteArray) : Except FileFault FileTree := do
  return tree.put (← tree.filePlace path) (.file content)

/-- The tree with a file made or made longer. -/
def append (tree : FileTree) (path : String) (content : ByteArray) :
    Except FileFault FileTree := do
  let place ← tree.filePlace path
  match tree.entry? place with
  | some (.file before) => return tree.put place (.file (before ++ content))
  | _ => return tree.put place (.file content)

/-- The tree with a file written and the directories above it made. -/
def plant (tree : FileTree) (path : String) (content : ByteArray) : Except FileFault FileTree := do
  let tree ←
    match Path.parent? path with
    | none | some "" => .ok tree
    | some directory => tree.makeDirectories directory
  tree.write path content

/-- The text of a file. -/
def text (tree : FileTree) (path : String) : Except FileFault String := do
  match (← tree.find path).2 with
  | .directory => .error .isDirectory
  | .file content =>
    match String.fromUTF8? content with
    | none => .error .notText
    | some text => .ok text

/-- The tree after a change that may be refused. -/
def after (tree : FileTree) : Except FileFault FileTree → Except FileFault Unit × FileTree
  | .ok changed => (.ok (), changed)
  | .error fault => (.error fault, tree)

/-- The answer to a question, and the tree after it. -/
def answer (tree : FileTree) : (question : Files.Question) → Files.Answer question × FileTree
  | .isDirectory path =>
    (match tree.find path with
      | .ok (_, .directory) => true
      | _ => false, tree)
  | .isPresent path => ((tree.find path).isOk, tree)
  | .names path =>
    (match tree.find path with
      | .ok (place, .directory) => .ok (tree.namesIn place)
      | .ok (_, .file _) => .error .notDirectory
      | .error fault => .error fault, tree)
  | .text path => (tree.text path, tree)
  | .makeDirectories path => tree.after (tree.makeDirectories path)
  | .write path text => tree.after (tree.write path text.toUTF8)
  | .append path text => tree.after (tree.append path text.toUTF8)

end FileTree

end ScreenPilot
