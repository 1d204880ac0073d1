import Chip8.Panel.Statistics
import Chip8.Sorting.Runs

/-!
# Statistics of a host's counts

A host may hand over counts that are not whole numbers. The panel is the one of whole counts,
with sums and shares in binary64 arithmetic. A count that is not a number compares with none;
where its entry stands is left to the sorting.
-/

namespace Chip8.Statistics

/-- Names with the counts of a host, each name once. -/
abbrev HostTable := List (String × Quantity)

namespace HostTable

/-- A table of whole counts as that of a host. -/
def ofTable (t : Table) : HostTable :=
  t.map fun (name, count) => (name, .whole count)

/-- The table of whole counts, if all counts are whole. -/
def toTable? (t : HostTable) : Option Table :=
  t.mapM fun (name, count) =>
    match count with
    | .whole value => some (name, value)
    | .real _ => none

/-- Whole counts stay what they are. -/
@[simp] theorem toTable?_ofTable (t : Table) : toTable? (ofTable t) = some t := by
  induction t with
  | nil => rfl
  | cons entry rest ih => simp_all [toTable?, ofTable]

/-- The sum of all counts, added one after the other. -/
def total (t : HostTable) : Except NumberError Quantity :=
  t.foldlM (fun sum entry => sum.add entry.2) (.whole 0)

/-- A higher count comes first, and of two names with equal counts the lesser. -/
def leads (a b : String × Quantity) : Bool :=
  b.2.lt a.2 || (a.2.eq b.2 && a.1 < b.1)

/-- The entries in the order of the panel. -/
def ranked (t : HostTable) : HostTable :=
  Sorting.sort leads t

/-- The entries of a category. -/
def inCategory (t : HostTable) (category : Category) : HostTable :=
  t.filter fun entry => Category.ofName entry.1 = category

/-- The entry of a name. -/
def cell (total : Quantity) (entry : String × Quantity) : Except NumberError String := do
  let share ← entry.2.percent 1 total
  return cellText entry.1 share

/-- The sum of a category with its share. -/
def categoryText (total : Quantity) (subtotal : Category × Quantity) :
    Except NumberError String := do
  let written ← subtotal.2.grouped?
  let share ← subtotal.2.percent 0 total
  return subtotal.1.lineText written share

/-- The text of the panel, with at most `top` single entries. -/
def text (t : HostTable) (top : Int := 8) : Except NumberError String :=
  match t.toTable? with
  | some table => Statistics.text table top grouped?
  | none => do
    let total ← t.total
    let cells ← (firstOf top t.ranked).mapM (cell total)
    let written ← total.grouped?
    let present := Category.all.filter fun category => !(t.inCategory category).isEmpty
    let subtotals ← present.mapM fun category => do
      let subtotal ← (t.inCategory category).total
      return (category, subtotal)
    let categories ← subtotals.mapM (categoryText total)
    return panel written t.length cells categories

end HostTable

end Chip8.Statistics
