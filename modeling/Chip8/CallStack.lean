import Chip8.Fault

/-!
# Call stack

Return addresses, the latest first, up to a fixed depth. Main facts: `push_eq_error_iff` and
`pop_eq_error_iff` say exactly when each operation faults.
-/

namespace Chip8

/-- A bounded stack of return addresses. -/
structure CallStack where
  -- How many entries the stack holds at most.
  depth : Int := 16
  -- The entries, the latest first.
  entries : List Int := []
deriving DecidableEq, Repr

namespace CallStack

/-- The number of entries. -/
def size (s : CallStack) : Nat :=
  s.entries.length

/-- The entries, the oldest first. -/
def oldestFirst (s : CallStack) : List Int :=
  s.entries.reverse

/-- Adds a return address; `pc` is the address of the call. -/
def push (s : CallStack) (address pc : Int) : Except Fault CallStack :=
  if s.depth ≤ s.size then .error (.stackOverflow pc s.depth)
  else .ok { s with entries := address :: s.entries }

/-- Takes the latest return address; `pc` is the address of the return. -/
def pop (s : CallStack) (pc : Int) : Except Fault (Int × CallStack) :=
  match s.entries with
  | [] => .error (.stackUnderflow pc)
  | address :: rest => .ok (address, { s with entries := rest })

/-- Removes all entries. -/
def clear (s : CallStack) : CallStack :=
  { s with entries := [] }

/-- A push fails exactly on a full stack. -/
theorem push_eq_error_iff (s : CallStack) (address pc : Int) (f : Fault) :
    s.push address pc = .error f ↔ s.depth ≤ s.size ∧ f = .stackOverflow pc s.depth := by
  unfold push
  split
  · simp_all [eq_comm]
  · simp only [reduceCtorEq, false_iff]
    omega

/-- A pop fails exactly on an empty stack. -/
theorem pop_eq_error_iff (s : CallStack) (pc : Int) (f : Fault) :
    s.pop pc = .error f ↔ s.entries = [] ∧ f = .stackUnderflow pc := by
  unfold pop
  split <;> simp_all [eq_comm]

end CallStack

end Chip8
