/-!
# Host numbers

A host names positions and sizes by integers of any size. Only integers that fit into a signed
word of 64 bits can be positions or sizes, and a size beyond all storage cannot be had.
-/

namespace Chip8.HostNumber

/-- Whether an integer fits into a signed word of 64 bits. -/
def fits (n : Int) : Bool :=
  -9223372036854775808 ≤ n && n < 9223372036854775808

/-- The wording for an integer that does not fit. -/
def misfit : String :=
  "cannot fit 'int' into an index-sized integer"

/-- From which size on there is no storage. -/
def storageLimit : Int :=
  68719476736

end Chip8.HostNumber
