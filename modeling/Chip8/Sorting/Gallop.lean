/-!
# Galloping search

Finds where a run of elements ends that are not past a certain point. The search looks at places
1, 3, 7, 15, … until it meets an element that is past, and then halves the range that remains. In
a run that is in order the answer is the number of elements before the first one that is past; in
any other run it depends on the places that were looked at, which are therefore part of what is
defined here.
-/

namespace Chip8.Sorting

/-- From which end the elements of a run are looked at. -/
inductive Direction
  -- From the low end on.
  | forward
  -- From the high end on.
  | backward
deriving DecidableEq, Repr

/-- Where a range of so many places is split, counted from the end that is looked at first. The
middle is always rounded towards the low end of the run. -/
def Direction.middle : Direction → Nat → Nat
  | forward, width => width / 2
  | backward, width => (width - 1) / 2

/-- The middle of a range is inside it. -/
theorem Direction.middle_lt (d : Direction) {width : Nat} (h : 0 < width) :
    d.middle width < width := by
  cases d <;> simp only [middle] <;> omega

variable {α : Type}

/-- Whether the element at a place is past the point; beyond the end every place is. -/
def isPast (past : α → Bool) (xs : List α) (place : Nat) : Bool :=
  xs[place]?.all past

/-- Looks further and further out: the last place that was not past, and the first that was, or
the length if there was none. -/
def reachOut (past : α → Bool) (xs : List α) (last reach : Nat) : Nat × Nat :=
  if reach < xs.length then
    if isPast past xs reach then (last, reach) else reachOut past xs reach (2 * reach + 1)
  else (last, xs.length)
termination_by xs.length - reach

/-- Halves the places from `low` to `high` until one is left. -/
def bisect (d : Direction) (past : α → Bool) (xs : List α) (low high : Nat) : Nat :=
  if low < high then
    let place := low + d.middle (high - low)
    if isPast past xs place then bisect d past xs low place
    else bisect d past xs (place + 1) high
  else low
termination_by high - low
decreasing_by
  all_goals
    have := d.middle_lt (show 0 < high - low by omega)
    omega

/-- How many elements stand before the first one that is past. -/
def gallop (d : Direction) (past : α → Bool) (xs : List α) : Nat :=
  if isPast past xs 0 then 0
  else
    let (last, reach) := reachOut past xs 0 1
    bisect d past xs (last + 1) reach

end Chip8.Sorting
