import Chip8.Benchmark.Report
import Chip8.Machine.Step
import Chip8.Random.Twister

/-!
# Workloads

Programs that are run for their speed, and operations that are repeated for theirs. The time is
read from a clock before and after; the work between two readings cannot be seen by the clock.
-/

namespace Chip8.Benchmark

/-- A clock with some readings to come. After them it advances by a quarter at every reading. -/
structure Clock where
  readings : List Quantity := []
  -- The reading before, if there was one.
  last : Option Quantity := none

namespace Clock

/-- How far a clock advances by itself. -/
def advance : Quantity :=
  .real (.ofDecimal false 25 (-2))

/-- Reads a clock. -/
def read (c : Clock) : Except NumberError (Quantity × Clock) :=
  match c.readings, c.last with
  | reading :: rest, _ => .ok (reading, { readings := rest, last := some reading })
  | [], none =>
    let reading := .real (.finite false 0)
    .ok (reading, { c with last := some reading })
  | [], some last => do
    let reading ← last.add advance
    return (reading, { c with last := some reading })

end Clock

/-- Why a program is no sequence of words. -/
inductive WordError
  -- A word below zero.
  | negative
  -- A word beyond sixteen bits.
  | tooLarge
deriving DecidableEq, Repr

/-- The wording of a refusal. -/
def WordError.message : WordError → String
  | .negative => "can't convert negative int to unsigned"
  | .tooLarge => "int too big to convert"

/-- The bytes of a program given as words, the high byte of each first. -/
def program? (words : List Int) : Except WordError (List UInt8) := do
  let bytes ← words.mapM fun word =>
    if word < 0 then .error .negative
    else if 65535 < word then .error .tooLarge
    else .ok [UInt8.ofInt (word / 256), UInt8.ofInt word]
  return bytes.flatten

/-- The bytes of a program given as words of sixteen bits. -/
def programOf (words : List Word) : List UInt8 :=
  words.flatMap fun word => [word.highByte, word.byte]

/-- A program to be timed. -/
structure Workload where
  name : String
  program : List UInt8
  -- For how many frames it runs.
  frames : Int

/-- How many steps a frame has. -/
def stepsPerFrame : Int := 10

/-- The built-in programs: a loop that counts, a mix of arithmetic, and drawing. -/
def builtIn : List Workload := [
  { name := "count"
    program := programOf ([0x6000, 0x7001, 0x1202].map Word.ofNat)
    frames := 20000 },
  { name := "alu"
    program := programOf
      ([0x6107, 0x8014, 0x8015, 0x8016, 0x801E, 0x8013, 0x1202].map Word.ofNat)
    frames := 20000 },
  { name := "sprites"
    program := programOf
      ([0x6000, 0x6100, 0xA050, 0xD015, 0x7003, 0x7101, 0x1206].map Word.ofNat)
    frames := 10000 }]

/-- Why there is no report. -/
inductive ReportError
  | number (error : NumberError)
  | program (error : ProgramTooLarge)
  | obstacle (error : Obstacle)
deriving DecidableEq, Repr

/-- The machine that programs are timed on. -/
def machineFor (program : List UInt8) : Except ReportError (Machine Twister) :=
  match (Machine.fresh (.ofSeed 0)).loadProgram program with
  | .ok (m, _) => .ok m
  | .error e => .error (.program e)

/-- How many cycles there were per second; none if no time was taken. -/
def rateOf (cycles : Int) (elapsed : Quantity) : Except NumberError Quantity :=
  if elapsed.positive then do
    let rate ← (Quantity.whole cycles).div elapsed
    return .real rate
  else .ok (.whole 0)

/-- Runs a program by the clock. -/
def timeWorkload (m : Machine Twister) (frames : Int) (clock : Clock) :
    Except ReportError (WorkloadResult × Machine Twister × Clock) := do
  let (start, clock) ← clock.read.mapError .number
  let run := Run.frames stepsPerFrame frames.toNat (.start m)
  match run.obstacle with
  | some obstacle => throw (.obstacle obstacle)
  | none =>
    let (stop, clock) ← clock.read.mapError .number
    let elapsed ← (stop.sub start).mapError .number
    let m := run.machine
    let rate ← (rateOf m.cycles elapsed).mapError .number
    return (
      { cycles := .whole m.cycles, elapsed, rate, waiting := m.awaitingKey,
        statistics := m.statistics.entries.map fun (name, count) => (name, .whole count) },
      m, clock)

/-- Reports an operation that was repeated between two readings of the clock. -/
def timeOperation (operations : Int) (clock : Clock) :
    Except NumberError (MicroResult × Clock) := do
  let (start, clock) ← clock.read
  let (stop, clock) ← clock.read
  let elapsed ← stop.sub start
  let rate ← (Quantity.whole operations).div elapsed
  return ({ operations := .whole operations, elapsed, rate := .real rate }, clock)

/-- An operation that is repeated for its speed. -/
inductive Operation
  | fetch | decode | draw | step
deriving DecidableEq, Repr

namespace Operation

/-- All operations in the order of the report. -/
def all : List Operation := [fetch, decode, draw, step]

/-- The name of an operation in the report. -/
def title : Operation → String
  | fetch => "memory.read16"
  | decode => "decode"
  | draw => "draw_sprite"
  | step => "vm.step (tight loop)"

/-- How often an operation is repeated if nothing else is said. -/
def repetitions : Operation → Int
  | fetch => 500000
  | decode => 500000
  | draw => 50000
  | step => 100000

end Operation

end Chip8.Benchmark
