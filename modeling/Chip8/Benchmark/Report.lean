import Chip8.Number.Quantity
import Chip8.Sorting.Runs
import Chip8.Text.Pad

/-!
# Throughput reports

Lines that say how fast something went: a rate with a unit of thousands or millions, the time
taken, and for programs the mix of instructions.
-/

namespace Chip8.Benchmark

/-- A rate per second, in millions from a million on, in thousands from a thousand on. -/
def rateText (rate : Quantity) : Except NumberError String :=
  if rate.atLeast 1000000 then do
    let millions ← rate.div (.whole 1000000)
    return millions.fixed 2 ++ "M"
  else if rate.atLeast 1000 then do
    let thousands ← rate.div (.whole 1000)
    return thousands.fixed 1 ++ "K"
  else rate.fixed 0

/-- The columns for a time and a rate. -/
def timing (elapsed rate : Quantity) : Except NumberError String := do
  let seconds ← elapsed.fixed 3
  let perSecond ← rateText rate
  return Text.padLeft 7 ' ' seconds ++ "s  " ++ Text.padLeft 8 ' ' perSecond ++ "/s  "

/-- What a program did in the time taken. -/
structure WorkloadResult where
  cycles : Quantity
  elapsed : Quantity
  rate : Quantity
  -- Whether the machine was left waiting for a key.
  waiting : Bool
  -- How often each instruction was executed, in the order of first execution.
  statistics : List (String × Quantity)

/-- How many instructions a mix names. -/
def mixLength : Nat := 5

/-- The most frequent instructions with their shares of the total; of equally frequent ones the
first executed comes first. A count that is not a number compares with none; where it stands is
left to the sorting. -/
def mixText (counts : List (String × Quantity)) (total : Quantity) :
    Except NumberError String := do
  let leading := (Sorting.sortDescending (fun a b => a.2.lt b.2) counts).take mixLength
  let parts ← leading.mapM fun (name, count) => do
    let share ← count.percent 0 total
    return name ++ " " ++ share
  return String.intercalate ", " parts

/-- The lines about a program. -/
def WorkloadResult.lines (r : WorkloadResult) (name : String) :
    Except NumberError (List String) := do
  let status := if r.waiting then "awaiting key" else "running"
  let columns ← timing r.elapsed r.rate
  let head := "  " ++ Text.padRight 14 ' ' name ++ " " ++ columns ++
    Text.padLeft 10 ' ' r.cycles.grouped ++ s!" cycles  ({status})"
  let total ← r.statistics.foldlM (fun sum entry => sum.add entry.2) (.whole 0)
  if total.isZero then return [head]
  let mix ← mixText r.statistics total
  return [head, "  " ++ Text.padRight 14 ' ' "" ++ " mix: " ++ mix]

/-- What a repeated operation did in the time taken. -/
structure MicroResult where
  operations : Quantity
  elapsed : Quantity
  rate : Quantity

/-- The line about a repeated operation. -/
def MicroResult.line (r : MicroResult) (name : String) : Except NumberError String := do
  let columns ← timing r.elapsed r.rate
  return "  " ++ Text.padRight 20 ' ' name ++ " " ++ columns ++
    s!"({r.operations.grouped} ops)"

end Chip8.Benchmark
