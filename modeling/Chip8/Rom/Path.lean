/-!
# Paths

A path is a text of parts between slashes. Its plain form has no repeated slashes and no parts that
stand for the same directory, but keeps the parts that lead up. The place to which it leads keeps
neither, so that different paths may lead to one place.
-/

namespace Chip8.Rom

namespace Path

/-- The parts of a path that name something. -/
def parts (path : String) : List String :=
  ((path.toList.splitOn '/').map String.ofList).filter fun part => part ≠ "" && part ≠ "."

/-- What an absolute path begins with: exactly two slashes are kept, any other number counts as
one. -/
def root (path : String) : String :=
  match path.toList with
  | '/' :: '/' :: '/' :: _ => "/"
  | '/' :: '/' :: _ => "//"
  | '/' :: _ => "/"
  | _ => ""

/-- The plain form of a path; an empty one is the current directory. -/
def plain (path : String) : String :=
  let text := root path ++ String.intercalate "/" (parts path)
  if text.isEmpty then "." else text

/-- The last part of a path. -/
def name (path : String) : String :=
  (parts path).getLastD ""

/-- From how many bytes on a path is too long. -/
def sizeLimit : Nat := 4096

/-- How many bytes a part of a path has at most. -/
def partLimit : Nat := 255

/-- Whether a part is too long to be the name of anything. -/
def isTooLong (part : String) : Bool :=
  partLimit < part.utf8ByteSize

end Path

/-- A place in a tree of directories. -/
structure Place where
  -- Whether it is reached from the root, and not from the current directory.
  absolute : Bool := false
  -- How many levels above the current directory the way begins.
  above : Nat := 0
  -- The names that lead on from there, the last one first.
  names : List String := []
deriving DecidableEq, Repr

namespace Place

/-- The directory in which a place lies; the root lies in itself. -/
def parent (p : Place) : Place :=
  match p.names with
  | _ :: names => { p with names }
  | [] => if p.absolute then p else { p with above := p.above + 1 }

/-- Where a part of a path leads. -/
def enter (p : Place) (part : String) : Place :=
  if part = ".." then p.parent else { p with names := part :: p.names }

/-- The places to which some parts lead, one after the other. -/
def along (p : Place) : List String → List Place
  | [] => []
  | part :: rest => p.enter part :: (p.enter part).along rest

end Place

namespace Path

/-- Where a path begins. -/
def start (path : String) : Place :=
  { absolute := root path ≠ "" }

/-- The places through which a path leads; the last one is where it ends. -/
def places (path : String) : List Place :=
  (start path).along (parts path)

/-- Where a path ends. -/
def place (path : String) : Place :=
  (places path).getLastD (start path)

end Path

end Chip8.Rom
