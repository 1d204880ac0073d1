import Chip8.Machine.Basic
import Chip8.Rom.FileTree

/-!
# Reading ROMs

A ROM is a plain run of bytes that fits into program memory. Reading one reports its length, with
a warning if that is odd.
-/

namespace Chip8.Rom

/-- Where bytes come from: the content of the file at a path. -/
abbrev Files := String → Except FileError (List UInt8)

/-- Why a ROM cannot be had. -/
inductive RomError
  | file (error : FileError)
  | tooLarge (error : ProgramTooLarge)
deriving DecidableEq, Repr

/-- The wording of a failure. -/
def RomError.message : RomError → String
  | .file error => error.message
  | .tooLarge error => error.message

/-- What reading a ROM of a given size reports. -/
def notes (path : String) (size : Nat) : Array Note :=
  (if size % 2 = 0 then #[] else #[.oddLength path size]).push (.romRead size path)

/-- The bytes of a ROM and the reports. -/
def read (files : Files) (path : String) : Except RomError (List UInt8 × Array Note) := do
  let bytes ← (files path).mapError .file
  if programLimit < bytes.length then .error (.tooLarge ⟨bytes.length⟩)
  else return (bytes, notes path bytes.length)

/-- A machine with a ROM in its memory: the machine, the size of the ROM and the reports. -/
def load {ρ : Type} (files : Files) (path : String) (m : Machine ρ) :
    Except RomError (Machine ρ × Nat × Array Note) := do
  let (bytes, reports) ← read files path
  let (m, note) ← (m.loadProgram bytes).mapError .tooLarge
  return (m, bytes.length, reports.push note)

end Chip8.Rom
