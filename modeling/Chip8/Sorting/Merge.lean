import Chip8.Sorting.Gallop

/-!
# Merging two runs

Two neighbouring runs become one. Elements are taken one at a time as long as the runs take turns.
When one run has given enough elements in a row, whole stretches are taken at once, which are
found by galloping; how many are enough is adapted to how well galloping pays.

Nothing is assumed about the comparison. If it is an order, the result is the stable merge;
if not, it is what the order of the comparisons makes of it.
-/

namespace Chip8.Sorting

variable {α : Type}

/-- Two runs under merge, both in the order in which their elements are taken. -/
structure Merging (α : Type) where
  -- What has been placed, the last element first.
  placed : List α := []
  -- What is left of the shorter run.
  short : List α
  -- What is left of the longer run.
  long : List α

namespace Merging

/-- Whether the merge is decided: one run is used up, or the shorter has one element left, which
is known to come after all others. -/
def decided (m : Merging α) : Bool :=
  match m.short, m.long with
  | _ :: _ :: _, _ :: _ => false
  | _, _ => true

/-- The merged run once all is decided. -/
def result (m : Merging α) : List α :=
  match m.short with
  | [x] => m.placed.reverse ++ (m.long ++ [x])
  | short => m.placed.reverse ++ (short ++ m.long)

/-- Places elements of the shorter run. -/
def placeShort (m : Merging α) (count : Nat) : Merging α :=
  { m with placed := (m.short.take count).reverse ++ m.placed, short := m.short.drop count }

/-- Places elements of the longer run. -/
def placeLong (m : Merging α) (count : Nat) : Merging α :=
  { m with placed := (m.long.take count).reverse ++ m.placed, long := m.long.drop count }

/-- Places the stretch of the shorter run that comes before the first of the longer, and then
that one; gives the length of the stretch. -/
def stretchShort (lt : α → α → Bool) (d : Direction) (m : Merging α) : Nat × Merging α :=
  match m.long with
  | [] => (0, m)
  | y :: _ =>
    let count := gallop d (lt y) m.short
    let m := m.placeShort count
    (count, if m.decided then m else m.placeLong 1)

/-- Places the stretch of the longer run that comes before the first of the shorter, and then
that one; gives the length of the stretch. -/
def stretchLong (lt : α → α → Bool) (d : Direction) (m : Merging α) : Nat × Merging α :=
  match m.short with
  | [] => (0, m)
  | x :: _ =>
    let count := gallop d (fun y => !lt y x) m.long
    let m := m.placeLong count
    (count, if m.decided then m else m.placeShort 1)

/-- A stretch of each run: of the left run first. -/
def stretches (lt : α → α → Bool) (d : Direction) (m : Merging α) : Nat × Merging α :=
  let (first, second) := match d with
    | .forward => (stretchShort lt d, stretchLong lt d)
    | .backward => (stretchLong lt d, stretchShort lt d)
  let (a, m) := first m
  if m.decided then (a, m)
  else
    let (b, m) := second m
    (max a b, m)

end Merging

/-- How elements are taken. -/
inductive Pace
  -- One at a time; how many the shorter and the longer run have just given in a row.
  | single (short long : Nat)
  | stretches

/-- The length of a stretch that pays. -/
def worthwhile : Nat := 7

/-- Goes on with a merge. `patience` is the number of elements in a row after which stretches are
tried; it is given back with the result for the next merge. Every round places an element, so
as many rounds as there are elements are enough. -/
def mergeFrom (lt : α → α → Bool) (d : Direction) :
    (rounds : Nat) → Pace → (patience : Nat) → Merging α → List α × Nat
  | 0, _, patience, m => (m.result, patience)
  | rounds + 1, pace, patience, m =>
    if m.decided then (m.result, patience)
    else
      match pace, m.short, m.long with
      | .single short long, x :: _, y :: _ =>
        if lt y x then
          let pace := if patience ≤ long + 1 then .stretches else .single 0 (long + 1)
          mergeFrom lt d rounds pace patience (m.placeLong 1)
        else
          let pace := if patience ≤ short + 1 then .stretches else .single (short + 1) 0
          mergeFrom lt d rounds pace patience (m.placeShort 1)
      | .stretches, _, _ =>
        let (longest, m) := m.stretches lt d
        if m.decided then (m.result, patience)
        else if worthwhile ≤ longest then
          mergeFrom lt d rounds .stretches (if 1 < patience then patience - 1 else patience) m
        else mergeFrom lt d rounds (.single 0 0) (patience + 1) m
      | _, _, _ => (m.result, patience)

/-- Merges what lies between two runs. The shorter one is moved out of the way, so the merge goes
forward if that is the left one and backward otherwise. Either way one element of the longer run
is known to come first. -/
def mergeBetween (lt : α → α → Bool) (patience : Nat) (left right : List α) : List α × Nat :=
  let rounds := left.length + right.length
  if left.length ≤ right.length then
    mergeFrom lt .forward rounds (.single 0 0) patience
      (Merging.placeLong { short := left, long := right } 1)
  else
    let (merged, patience) := mergeFrom (fun x y => lt y x) .backward rounds (.single 0 0) patience
      (Merging.placeLong { short := right.reverse, long := left.reverse } 1)
    (merged.reverse, patience)

/-- Merges two neighbouring runs. The elements of the left run before the first of the right, and
those of the right run behind the last of the left, are in their places already. -/
def merge (lt : α → α → Bool) (patience : Nat) (left right : List α) : List α × Nat :=
  match right, left.getLast? with
  | first :: _, some last =>
    let before := gallop .forward (lt first) left
    let behind := gallop .backward (fun x => lt x last) right.reverse
    let stop := right.length - behind
    if (left.drop before).isEmpty || (right.take stop).isEmpty then (left ++ right, patience)
    else
      let (between, patience) := mergeBetween lt patience (left.drop before) (right.take stop)
      (left.take before ++ between ++ right.drop stop, patience)
  | _, _ => (left ++ right, patience)

end Chip8.Sorting
