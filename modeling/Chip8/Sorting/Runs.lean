import Chip8.Sorting.Merge

/-!
# Sorting by runs

A list is cut into runs that rise, or fall strictly and are turned round; short runs are made
longer by insertion. Neighbouring runs are merged in an order that keeps the merges balanced: each
boundary between two runs has a power, and boundaries of higher power are merged away first.

The comparison need not be an order: with numbers that compare with nothing, how the result is
arranged follows from the order of the comparisons.
-/

namespace Chip8.Sorting

variable {α : Type}

/-- Takes elements as long as each stands in a relation to the one before. -/
def takeLinked (linked : α → α → Bool) (before : α) : List α → List α × List α
  | [] => ([], [])
  | x :: rest =>
    if linked before x then
      let (taken, rest) := takeLinked linked x rest
      (x :: taken, rest)
    else ([], x :: rest)

/-- The run at the head of a list, in rising order, and what follows it. -/
def naturalRun (lt : α → α → Bool) : List α → List α × List α
  | x :: y :: rest =>
    if lt y x then
      let (taken, rest) := takeLinked (fun a b => lt b a) y rest
      ((x :: y :: taken).reverse, rest)
    else
      let (taken, rest) := takeLinked (fun a b => !lt b a) y rest
      (x :: y :: taken, rest)
  | short => (short, [])

/-- Inserts an element into a run, behind those that are not greater. -/
def insertSorted (lt : α → α → Bool) (run : List α) (x : α) : List α :=
  let place := bisect .forward (lt x) run 0 run.length
  run.take place ++ x :: run.drop place

/-- The least length of a run in a list of so many elements. From 64 elements on it lies between
32 and 64 and is such that nearly a power of two of them make the list; a shorter list is one
run. -/
def leastRun (size : Nat) (odd : Nat := 0) : Nat :=
  if 64 ≤ size then leastRun (size / 2) (max odd (size % 2)) else size + odd
termination_by size

/-- The next run, made as long as it has to be while there are elements, and what follows it. -/
def nextRun (lt : α → α → Bool) (least : Nat) (xs : List α) : List α × List α :=
  let (run, rest) := naturalRun lt xs
  let missing := least - run.length
  ((rest.take missing).foldl (insertSorted lt) run, rest.drop missing)

/-- The power of a boundary: the first binary place in which the middles of its two runs differ,
both as fractions of the whole. The middles are given in units of half an element; one place is
looked at in each round. -/
def boundaryPower (size : Nat) : (rounds left right : Nat) → Nat
  | 0, _, _ => 0
  | rounds + 1, left, right =>
    if left / size = right / size then
      1 + boundaryPower size rounds (2 * (left % size)) (2 * (right % size))
    else 1

/-- A run that waits to be merged. -/
structure Waiting (α : Type) where
  -- The place of its first element.
  start : Nat
  elements : List α
  -- The power of the boundary behind it.
  power : Nat := 0

/-- The runs that wait, the last one first, and the patience of the next merge. -/
structure Pile (α : Type) where
  runs : List (Waiting α) := []
  patience : Nat := worthwhile

namespace Pile

/-- The elements of the runs, from the first run on. -/
def inOrder (runs : List (Waiting α)) : List α :=
  (runs.reverse.map (·.elements)).flatten

/-- Merges a run with its left neighbour. -/
def joined (lt : α → α → Bool) (patience : Nat) (left right : Waiting α) : Waiting α × Nat :=
  let (elements, patience) := merge lt patience left.elements right.elements
  ({ left with elements }, patience)

/-- Merges the last runs as long as the boundary before them has a power above the given one. -/
def settle (lt : α → α → Bool) (power patience : Nat) : Waiting α → List (Waiting α) → Pile α
  | top, [] => { runs := [{ top with power }], patience }
  | top, below :: rest =>
    if power < below.power then
      let (run, patience) := joined lt patience below top
      settle lt power patience run rest
    else { runs := { top with power } :: below :: rest, patience }

/-- Adds a run of a list of so many elements. -/
def push (lt : α → α → Bool) (size : Nat) (p : Pile α) (run : List α) : Pile α :=
  match p.runs with
  | [] => { p with runs := [{ start := 0, elements := run }] }
  | top :: rest =>
    let left := 2 * top.start + top.elements.length
    let right := left + top.elements.length + run.length
    let p := settle lt (boundaryPower size size left right) p.patience top rest
    { p with runs := { start := top.start + top.elements.length, elements := run } :: p.runs }

/-- Merges the last two runs, or those before the last if it is longer than the third, until one
run is left. -/
def collapse (lt : α → α → Bool) : (rounds : Nat) → Pile α → List α
  | rounds + 1, { runs := top :: middle :: bottom :: rest, patience } =>
    if bottom.elements.length < top.elements.length then
      let (run, patience) := joined lt patience bottom middle
      collapse lt rounds { runs := top :: run :: rest, patience }
    else
      let (run, patience) := joined lt patience middle top
      collapse lt rounds { runs := run :: bottom :: rest, patience }
  | _ + 1, { runs := [top, bottom], patience } => (joined lt patience bottom top).1.elements
  | _, p => inOrder p.runs

end Pile

/-- Adds all runs of a list to the pile; each takes an element, so as many rounds as there are
elements are enough. -/
def pileUp (lt : α → α → Bool) (size least : Nat) : (rounds : Nat) → Pile α → List α → Pile α
  | rounds + 1, p, x :: xs =>
    let (run, rest) := nextRun lt least (x :: xs)
    pileUp lt size least rounds (p.push lt size run) rest
  | _, p, _ => p

/-- Sorts a list, the least element first; elements that compare alike keep their order. -/
def sort (lt : α → α → Bool) (xs : List α) : List α :=
  let p := pileUp lt xs.length (leastRun xs.length) xs.length {} xs
  p.collapse lt p.runs.length

/-- Sorts a list, the greatest element first; elements that compare alike keep their order. -/
def sortDescending (lt : α → α → Bool) (xs : List α) : List α :=
  (sort lt xs.reverse).reverse

end Chip8.Sorting
