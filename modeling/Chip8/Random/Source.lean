/-!
# Sources of random bytes

The machine takes its random bytes from a source that it carries along. A `ByteSource` is any type
with a `draw?`, which gives the next byte and the source that remains, or says why there is none.
A `RandomSource` always has a byte; it is a `ByteSource` that never refuses. `Replay` gives a
fixed list over and over, and refuses if the list is empty.
-/

namespace Chip8

/-- Why a source has no byte. -/
inductive SourceError
  -- The list to take a byte from is empty, so no place in it can be counted round.
  | emptyList
deriving DecidableEq, Repr

/-- The wording of the refusal. -/
def SourceError.message : SourceError → String
  | .emptyList => "integer modulo by zero"

/-- A state from which bytes are drawn. -/
class ByteSource (ρ : Type) where
  draw? : ρ → Except SourceError (UInt8 × ρ)

/-- A state from which bytes can always be drawn. -/
class RandomSource (ρ : Type) where
  draw : ρ → UInt8 × ρ

instance {ρ : Type} [RandomSource ρ] : ByteSource ρ where
  draw? source := .ok (RandomSource.draw source)

/-- A random source never refuses. -/
@[simp] theorem draw?_eq_ok {ρ : Type} [RandomSource ρ] (source : ρ) :
    ByteSource.draw? source = .ok (RandomSource.draw source) := rfl

/-- A source that repeats a list of bytes. -/
structure Replay where
  bytes : Array UInt8
  -- The place of the next draw.
  next : Nat := 0
deriving DecidableEq, Repr

namespace Replay

/-- The source that repeats the low bytes of a list of integers. -/
def ofInts (values : List Int) : Replay :=
  { bytes := (values.map UInt8.ofInt).toArray }

/-- The next byte; places are counted round the list. -/
def draw? (r : Replay) : Except SourceError (UInt8 × Replay) :=
  match r.bytes[r.next % r.bytes.size]? with
  | some byte => .ok (byte, { r with next := (r.next + 1) % r.bytes.size })
  | none => .error .emptyList

instance : ByteSource Replay where
  draw? := draw?

end Replay

end Chip8
