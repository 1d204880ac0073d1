import Chip8.Rom.Path
import Chip8.Text.Quoted

/-!
# ROM files

Why a file cannot be read, and a snapshot of a directory tree from which files are read by path. An
error names the path in its plain form.
-/

namespace Chip8.Rom

/-- Why a file cannot be read. -/
inductive FileError
  | notFound (path : String)
  | isDirectory (path : String)
  -- The path leads through a file.
  | notDirectory (path : String)
  -- The path or a part of it is longer than the file system allows.
  | nameTooLong (path : String)
  | nullCharacter
  | other (path reason : String)
deriving DecidableEq, Repr

/-- The wording of a failure. -/
def FileError.message : FileError → String
  | .notFound path => "[Errno 2] No such file or directory: " ++ Text.quoted path
  | .isDirectory path => "[Errno 21] Is a directory: " ++ Text.quoted path
  | .notDirectory path => "[Errno 20] Not a directory: " ++ Text.quoted path
  | .nameTooLong path => "[Errno 36] File name too long: " ++ Text.quoted path
  | .nullCharacter => "embedded null byte"
  | .other path reason => reason ++ ": " ++ Text.quoted path

/-- What stands at a place of a tree. -/
inductive Entry
  | file (bytes : List UInt8)
  | directory
deriving DecidableEq, Repr

/-- A snapshot of a directory tree. -/
structure FileTree where
  -- The files by place; of several at one place the first counts.
  files : List (Place × List UInt8) := []
  -- The directories besides those where paths begin.
  directories : List Place := []

namespace FileTree

/-- The tree after some directories were made and then some files were written, in order, by path.
A file that is written again loses its old content. Every directory on a way is there. -/
def ofPaths (files : List (String × List UInt8)) (directories : List String) : FileTree :=
  { files := files.reverse.map fun (path, bytes) => (Path.place path, bytes)
    directories :=
      directories.flatMap Path.places ++
        files.flatMap fun (path, _) => (Path.places path).dropLast }

/-- What stands at a place. -/
def entry? (t : FileTree) (place : Place) : Option Entry :=
  match t.files.find? fun file => file.1 = place with
  | some (_, bytes) => some (.file bytes)
  | none =>
    if place.names.isEmpty ∨ place ∈ t.directories then some .directory else none

/-- Follows the parts of a path from a place. A part is looked at only once there is a directory to
find it in. -/
def follow (t : FileTree) (path : String) (place : Place) : List String → Except FileError Entry
  | [] =>
    match t.entry? place with
    | some entry => .ok entry
    | none => .error (.notFound path)
  | part :: rest =>
    match t.entry? place with
    | none => .error (.notFound path)
    | some (.file _) => .error (.notDirectory path)
    | some .directory =>
      if Path.isTooLong part then .error (.nameTooLong path)
      else t.follow path (place.enter part) rest

/-- Reads the file at a path. The path as a whole is judged before its parts. -/
def read (t : FileTree) (path : String) : Except FileError (List UInt8) :=
  let shown := Path.plain path
  if path.toList.contains '\x00' then .error .nullCharacter
  else if Path.sizeLimit ≤ shown.utf8ByteSize then .error (.nameTooLong shown)
  else
    match t.follow shown (Path.start path) (Path.parts path) with
    | .error e => .error e
    | .ok (.file bytes) => .ok bytes
    | .ok .directory => .error (.isDirectory shown)

end FileTree

end Chip8.Rom
