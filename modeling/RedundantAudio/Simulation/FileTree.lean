import RedundantAudio.Cli.SystemError
import RedundantAudio.Reception.Recording

/-!
# Files of a Simulated Host

A tree of files, for programs that are run without an operating system. It
says what there is at each path, and a walk along the names of a path finds
it or runs into an error. An error at one name hides what is wrong with the
names behind it.

A file may be created where a directory already is, and then it is created
empty. What is written to it is not kept.

## Main definitions

* `Node`: What there is at a path.
* `FileTree`: What there is at all paths.
* `FileTree.walk`: Walks along names.
* `FileTree.read`: Reads the file at a path.
* `FileTree.create`: Creates the file at a path.
-/

namespace RedundantAudio

namespace Simulation

/-- What there is at a path. -/
inductive Node
  | directory
  /-- A file with some bytes. -/
  | file (content : Bytes)
  /-- A device that holds nothing and takes everything. -/
  | empty
  /-- A device that holds bytes without end, here zeros, and takes
      everything. -/
  | endless
  /-- A device that holds zeros without end and takes nothing. -/
  | full
  deriving DecidableEq, Repr

/-- The names from the root to a file. -/
abbrev Path := List String

/-- What there is at all paths. -/
structure FileTree where
  /-- What there is below the root, by path. -/
  nodes : List (Path × Node)
  /-- Where paths start that do not start at the root. -/
  home : Path
  deriving DecidableEq, Repr

namespace FileTree

/-- What there is at a path. The root is a directory. -/
def find (t : FileTree) (path : Path) : Option Node :=
  if path.isEmpty then some .directory else t.nodes.lookup path

/-- The bytes that a path may have. -/
def maxPath : Nat := 4095

/-- The bytes that a name may have. -/
def maxName : Nat := 255

/-- The names in a path. -/
def namesIn (path : String) : List String :=
  (path.splitOn "/").filter (!·.isEmpty)

/-- Walks from a path along names. Only directories have something below
    them. -/
def walk (t : FileTree) (here : Path) : List String → Except Cli.SystemError Path
  | [] => .ok here
  | name :: names =>
    if t.find here ≠ some .directory then .error .notDirectory
    else if name = "." then t.walk here names
    else if name = ".." then t.walk here.dropLast names
    else if name.utf8ByteSize > maxName then .error .nameTooLong
    else
      match t.find (here ++ [name]) with
      | none => .error .noSuchFile
      | some _ => t.walk (here ++ [name]) names

/-- Where a path starts. -/
def start (t : FileTree) (path : String) : Except Cli.SystemError Path :=
  if path.isEmpty then .error .noSuchFile
  else if path.utf8ByteSize > maxPath then .error .nameTooLong
  else if path.toList.head? = some '/' then .ok []
  else .ok t.home

/-- Whether a path ends like that of a directory. -/
def namesDirectory (path : String) : Bool :=
  path.toList.getLast? = some '/'

/-- As many zeros as are read from a device at a time. -/
def pageOfZeros : Bytes := List.replicate 4096 0

/-- Reads the file at a path. -/
def read (t : FileTree) (path : String) : Except Cli.SystemError Bytes := do
  let names := namesIn path ++ if namesDirectory path then ["."] else []
  let place ← t.walk (← t.start path) names
  match t.find place with
  | some .directory => throw .isDirectory
  | some (.file content) => return content
  | some .empty => return []
  | some .endless | some .full => return pageOfZeros
  | none => throw .noSuchFile

/-- Creates the file at a path, and says how it takes what is written. -/
def create (t : FileTree) (path : String) : Except Cli.SystemError Reception.Medium := do
  let start ← t.start path
  match (namesIn path).getLast? with
  | none => throw .isDirectory
  | some name =>
    let place ← t.walk start ((namesIn path).dropLast ++ ["."])
    if namesDirectory path || name = "." || name = ".." then throw .isDirectory
    else if name.utf8ByteSize > maxName then throw .nameTooLong
    else
      match t.find (place ++ [name]) with
      | some .directory => throw .isDirectory
      | some .full => return .full
      | some (.file _) | some .empty | some .endless | none => return .sound

end FileTree

end Simulation

end RedundantAudio
