import MiniLexer.Cli.ReadFailure

/-!
# File trees

The files and directories around the place where a run starts, as a value. A path is
resolved the way an operating system does it, component by component: every component but
the last has to be a directory, and so has the last if a slash follows it. Files are put
into the tree by such paths too, and bring the directories on the way to them.

A place is given by names that lead there from the start of the run. Places above the start
begin with as many `..`, absolute ones with `/`. Those are directories, and of what is in
them only what was put there is known.
-/

namespace MiniLexer.Cli

/-- What a path can lead to. -/
inductive Entry where
  /-- A file with these bytes. -/
  | file (bytes : ByteArray)
  /-- A directory. -/
  | directory

/-! ## Places -/

/-- A place by the names that lead to it. -/
abbrev Place := List String

/-- Where a path begins. -/
def Place.start (path : String) : Place := if path.startsWith "/" then ["/"] else []

/-- The directory around a directory. The root is around itself. -/
def Place.parent (here : Place) : Place :=
  match here.getLast? with
  | none | some ".." => here ++ [".."]
  | some "/" => here
  | some _ => here.dropLast

/-! ## Trees -/

/-- What is at the places of a tree, the latest first. -/
structure FileTree where
  entries : List (Place × Entry) := []

namespace FileTree

/-- What is at a place. -/
def find? (t : FileTree) (here : Place) : Option Entry := t.entries.lookup here

/-- Puts an entry at a place, over what is there. -/
def put (t : FileTree) (here : Place) (entry : Entry) : FileTree :=
  { entries := (here, entry) :: t.entries }

/-- Puts an entry where the components of a path lead from a directory, and makes the
directories on the way. -/
def insertFrom (t : FileTree) (here : Place) (entry : Entry) : List String → FileTree
  | [] => t
  | "" :: rest | "." :: rest => t.insertFrom here entry rest
  | ".." :: rest => t.insertFrom here.parent entry rest
  | [name] => t.put (here ++ [name]) entry
  | name :: next :: rest =>
    (t.put (here ++ [name]) .directory).insertFrom (here ++ [name]) entry (next :: rest)

/-- Puts an entry where a path leads. -/
def insert (t : FileTree) (path : String) (entry : Entry) : FileTree :=
  t.insertFrom (.start path) entry (path.splitOn "/")

/-- The bytes of the file to which the components of a path lead from a directory. -/
def readFrom (t : FileTree) (here : Place) : List String → Except ReadFailure ByteArray
  | [] => .error .directory
  | "" :: rest | "." :: rest => t.readFrom here rest
  | ".." :: rest => t.readFrom here.parent rest
  | name :: rest =>
    match t.find? (here ++ [name]) with
    | none => .error .missing
    | some .directory => t.readFrom (here ++ [name]) rest
    | some (.file bytes) => if rest.isEmpty then .ok bytes else .error .behindFile

/-- The bytes of the file that a path names. The empty path names nothing. -/
def readBytes (t : FileTree) (path : String) : Except ReadFailure ByteArray :=
  if path = "" then .error .missing else t.readFrom (.start path) (path.splitOn "/")

/-- The text of the file that a path names. -/
def read (t : FileTree) (path : String) : Except ReadFailure String :=
  match t.readBytes path with
  | .ok bytes => decodeText bytes
  | .error failure => .error failure

end FileTree

end MiniLexer.Cli
