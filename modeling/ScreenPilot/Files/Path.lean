/-!
# Paths of files

A path is a text whose parts stand between slashes. A path that begins with a
slash starts at the root of the file system, any other where the program was
started. The file system itself knows paths as bytes, which need not make a text.
-/

set_option autoImplicit false

namespace ScreenPilot

namespace Path

/-- The path starts at the root of the file system. -/
def isAbsolute (path : String) : Bool := path.startsWith "/"

/-- A path as seen from a directory. -/
def join (directory path : String) : String :=
  if isAbsolute path ∨ directory = "" then path
  else if directory.endsWith "/" then directory ++ path
  else directory ++ "/" ++ path

/-- A path may be this many bytes long. -/
def longest : Nat := 4095

/-- A file may have the name: it is not too long, and does not hold the character
zero. -/
def isName (name : String) : Bool := name.utf8ByteSize ≤ 255 && '\x00' ∉ name.toList

/-- What stands between the slashes. -/
def pieces (path : String) : List String := path.splitOn "/"

/-- The parts of a path, without empty ones and those that stay in place. -/
def parts (path : String) : List String :=
  (pieces path).filter fun part => part ≠ "" ∧ part ≠ "."

/-- The last step of a path is to stay in place. -/
def staysAtEnd (path : String) : Bool :=
  (pieces path |>.filter (· ≠ "")).getLast? = some "."

/-- The directory a path stands in, if the path has a last part. -/
def parent? (path : String) : Option String :=
  match parts path with
  | [] => none
  | parts =>
    let directory := "/".intercalate parts.dropLast
    some (if isAbsolute path then "/" ++ directory else directory)

/-- The file name has the ending, and a name before it. -/
def hasEnding (ending name : String) : Bool :=
  name.endsWith ("." ++ ending) ∧ name ≠ "." ++ ending

end Path

/-- A path as the file system knows it. -/
structure RawPath where
  bytes : Array UInt8
deriving DecidableEq

namespace RawPath

/-- The path that a text is. -/
def ofText (text : String) : RawPath := ⟨text.toUTF8.data⟩

/-- The text that the path is, if it is one. -/
def text? (path : RawPath) : Option String := String.fromUTF8? ⟨path.bytes⟩

end RawPath

end ScreenPilot
