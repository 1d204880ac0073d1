import Chip8.Number.Grouped
import Chip8.Number.Quantity
import Chip8.Tally
import Chip8.Text.Pad

/-!
# Statistics panel

How often each instruction was executed: the total, the most frequent names with their shares,
and the totals of the categories to which the names belong.
-/

namespace Chip8.Statistics

-- Zero is the numeral here, and not that of an algebraic structure.
attribute [local instance (1100)] Zero.ofOfNat0

/-- What an instruction is for. -/
inductive Category
  | flow | alu | memory | display | input | other
deriving DecidableEq, Repr

namespace Category

/-- All categories in the order of the panel. -/
def all : List Category :=
  [flow, alu, memory, display, input, other]

/-- The label of a category. -/
def label : Category → String
  | flow => "Flow"
  | alu => "ALU"
  | memory => "Memory"
  | display => "Display"
  | input => "Keys/Timers"
  | other => "Other"

/-- The names that belong to a category. -/
def names : Category → List String
  | flow =>
    ["JP", "CALL", "RET", "JP_V0", "SE_VX_BYTE", "SNE_VX_BYTE", "SE_VX_VY", "SNE_VX_VY"]
  | alu =>
    ["LD_VX_BYTE", "ADD_VX_BYTE", "LD_VX_VY", "OR", "AND", "XOR", "ADD_VX_VY", "SUB", "SHR",
      "SUBN", "SHL", "RND"]
  | memory => ["LD_I", "ADD_I_VX", "LD_F_VX", "LD_B_VX", "LD_MEM_VX", "LD_VX_MEM"]
  | display => ["CLS", "DRW"]
  | input => ["SKP", "SKNP", "LD_VX_K", "LD_VX_DT", "LD_DT_VX", "LD_ST_VX"]
  | other => []

/-- The category of a name. -/
def ofName (name : String) : Category :=
  (all.find? fun category => name ∈ category.names).getD other

end Category

/-- Names with their counts, each name once. -/
abbrev Table := List (String × Int)

/-- Sets the count of a name, which keeps its place if it has one. -/
def setCount {α : Type} (name : String) (count : α) : List (String × α) → List (String × α)
  | [] => [(name, count)]
  | entry :: rest =>
    if entry.1 = name then (name, count) :: rest else entry :: setCount name count rest

/-- Each name once, with the last of its counts. -/
def lastCounts {α : Type} (pairs : List (String × α)) : List (String × α) :=
  pairs.foldl (fun counts (name, count) => setCount name count counts) []

/-- A tally as a table. -/
def Table.ofTally (t : Tally String) : Table :=
  t.entries.map fun (name, count) => (name, (count : Int))

/-- The sum of all counts. -/
def Table.total (t : Table) : Int :=
  (t.map (·.2)).sum

/-- Higher counts come first, and names in rising order among equal counts. -/
def precedes (a b : String × Int) : Bool :=
  b.2 < a.2 || (a.2 = b.2 && a.1 ≤ b.1)

/-- The entries in the order of the panel. -/
def Table.ranked (t : Table) : Table :=
  t.mergeSort precedes

/-- The first `count` elements; a negative count leaves out as many at the end. -/
def firstOf {α : Type} (count : Int) (list : List α) : List α :=
  if 0 ≤ count then list.take count.toNat else list.take (list.length - count.natAbs)

/-- A name with its share of the total. -/
def cellText (name share : String) : String :=
  Text.padRight 11 ' ' name ++ " " ++ Text.padLeft 6 ' ' share

/-- The entry of a name. -/
def cell (total : Int) (entry : String × Int) : Except NumberError String := do
  let share ← Quantity.percent 1 (.whole entry.2) (.whole total)
  return cellText entry.1 share

/-- Lines of four entries. -/
def cellLines : List String → List String
  | a :: b :: c :: d :: rest =>
    ("  " ++ String.intercalate "   " [a, b, c, d]) :: cellLines rest
  | [] => []
  | rest => ["  " ++ String.intercalate "   " rest]

/-- The entries of a category. -/
def Table.inCategory (t : Table) (category : Category) : Table :=
  t.filter fun entry => Category.ofName entry.1 = category

/-- A way to write a sum. -/
abbrev Writer := Int → Except NumberError String

/-- Writes every sum, with grouped digits. -/
def Writer.plain : Writer := fun sum => .ok (grouped sum)

/-- A category with its sum and its share of the total. -/
def Category.lineText (category : Category) (sum share : String) : String :=
  category.label ++ ": " ++ sum ++ " (" ++ share ++ ")"

/-- The total of a category with its share. -/
def categoryText (write : Writer) (t : Table) (category : Category) :
    Except NumberError String := do
  let subtotal := (t.inCategory category).total
  let written ← write subtotal
  let share ← Quantity.percent 0 (.whole subtotal) (.whole t.total)
  return category.lineText written share

/-- The panel of a table with entries: the total and the number of names, the single entries, and
after a blank line the categories. -/
def panel (total : String) (distinct : Nat) (cells categories : List String) : String :=
  String.intercalate "\n"
    ((total ++ s!" instructions, {distinct} distinct") :: cellLines cells ++
      ["", "  " ++ String.intercalate "  |  " categories])

/-- The text of the panel, with at most `top` single entries. -/
def text (t : Table) (top : Int := 8) (write : Writer := .plain) : Except NumberError String :=
  if t.isEmpty then .ok "No instructions executed."
  else do
    let cells ← (firstOf top t.ranked).mapM (cell t.total)
    let written ← write t.total
    let present := Category.all.filter fun category => !(t.inCategory category).isEmpty
    let categories ← present.mapM (categoryText write t)
    return panel written t.length cells categories

end Chip8.Statistics
