import Chip8.Proofs.WellFormed

/-!
# Resets in place

`Machine.reset` gives a fresh machine with the random source of the old one. `Machine.resetParts`
resets a machine the way a host would have to, part after part and each where it stands: cells and
rows are overwritten, the stack and the keypad are emptied, the font is copied in with its bounds
checked, and what no part names stays as it is. A new machine is built from blank parts by the same
reset. The two resets agree on every machine that calls can lead to, as all that a reset leaves
behind is the depth of the stack, which never changes, and the random source. So a machine that was
reset cannot be told from a new one with the same source.

## Key results

- `Machine.resetParts_eq`, `Machine.build_eq`: a reset in place is a reset, and a new machine is a
  fresh one
- `Machine.callEach_machine`: machines that are reset in place go where machines go
- `Machine.resetParts_complete`: a machine after a reset, call by call
-/

namespace Chip8

/-! ## Parts that are emptied where they stand -/

/-- Zeroes every cell. -/
def Memory.clear {size : Nat} (m : Memory size) : Memory size :=
  ⟨m.cells.map fun _ => 0⟩

/-- Turns every pixel off, row by row. -/
def Framebuffer.clear {width height : Nat} (fb : Framebuffer width height) :
    Framebuffer width height :=
  ⟨fb.rows.map fun row => row.map fun _ => false⟩

/-- Releases every key and stops waiting. -/
def Keypad.reset (k : Keypad) : Keypad :=
  { k with states := .none }.endWait

/-- Sets both timers to zero. -/
def Timers.reset (t : Timers) : Timers :=
  { t with delay := 0, sound := 0 }

/-- Nothing of the old content is left in a memory. -/
private theorem Memory.clear_eq_blank {size : Nat} (m : Memory size) : m.clear = blank size := by
  have hcells : (m.cells.map fun _ => (0 : UInt8)) = Vector.replicate (min size 4096) 0 := by
    ext i hi
    rw [Vector.getElem_map, Vector.getElem_replicate]
  rw [clear, hcells, blank]

/-- Nothing of the old picture is left on a screen. -/
private theorem Framebuffer.clear_eq_blank {width height : Nat}
    (fb : Framebuffer width (height + 1)) :
    fb.clear = blank width (height + 1) := by
  have hrows : (fb.rows.map fun row => row.map fun _ => false) =
      Vector.replicate (height + 1) (Vector.replicate width false) := by
    ext i hi j hj
    rw [Vector.getElem_map, Vector.getElem_map, Vector.getElem_replicate, Vector.getElem_replicate]
  rw [clear, hrows, blank]

/-- A keypad has no parts but the keys and the latch. -/
theorem Keypad.reset_eq (k : Keypad) : k.reset = {} := rfl

/-- Timers have no parts but the two counts. -/
theorem Timers.reset_eq (t : Timers) : t.reset = {} := rfl

/-- A cleared stack keeps nothing but its depth. -/
private theorem CallStack.clear_eq {s : CallStack} (h : s.depth = 16) : s.clear = {} := by
  rw [clear, h]

namespace Machine

variable {ρ : Type}

/-! ## Resets and new machines -/

/-- Resets a machine part by part. Copying the font may be refused. -/
def resetParts (m : Machine ρ) : Except MemoryError (Machine ρ) := do
  let memory ← m.memory.clear.load? Font.base Font.glyphs
  return { m with
    memory
    registers := .zero
    stack := m.stack.clear
    screen := m.screen.clear
    timers := m.timers.reset
    keypad := m.keypad.reset
    pc := Address.ofInt programStart
    index := Address.ofInt 0
    cycles := 0
    statistics := {}
    fault := none }

/-- A new machine: blank parts, and a reset. -/
def build (random : ρ) : Except MemoryError (Machine ρ) :=
  resetParts { memory := .blank 4096, random }

/-- There is room for the font. -/
private theorem load?_font : (Memory.blank 4096).load? Font.base Font.glyphs = .ok fontMemory := by
  rw [Memory.load?, if_neg (by decide)]
  rfl

/-- A reset in place is a reset, whatever was in the parts. -/
theorem resetParts_eq {m : Machine ρ} (h : m.stack.depth = 16) :
    m.resetParts = .ok m.reset := by
  -- The cleared memory of the machine is blank, so that it has the room that a blank one has.
  have hload := load?_font
  rw [← m.memory.clear_eq_blank] at hload
  simp only [resetParts, hload, ok_bind, CallStack.clear_eq h, Framebuffer.clear_eq_blank,
    Keypad.reset_eq, Timers.reset_eq]
  rfl

/-- A reset does not draw. -/
private theorem reset_random (m : Machine ρ) : m.reset.random = m.random := by
  rw [reset, fresh]

/-- A new machine is a fresh one. -/
theorem build_eq (random : ρ) : build random = .ok (fresh random) :=
  resetParts_eq rfl

/-! ## Calls with resets in place -/

/-- Why a call failed. -/
inductive Failure
  | refused (error : CallError)
  -- A reset could not copy the font.
  | reset (error : MemoryError)
deriving DecidableEq, Repr

/-- What a call gave back, which is something for a step only, and the machine after it. -/
structure Response (ρ : Type) where
  result : Except Failure (Option Outcome)
  machine : Machine ρ

variable [ByteSource ρ]

/-- Answers a call, with resets in place. A reset that fails has cleared memory by then. -/
def respond (m : Machine ρ) : Call → Response ρ
  | .reset =>
    match m.resetParts with
    | .ok after => { result := .ok none, machine := after }
    | .error error =>
      { result := .error (.reset error), machine := { m with memory := m.memory.clear } }
  | .drive .step =>
    { result := match m.step.result with
        | .ok outcome => .ok (some outcome)
        | .error obstacle => .error (.refused (.obstacle obstacle))
      machine := m.step.machine }
  | call =>
    let a := m.call call
    { result := match a.error with
        | none => .ok none
        | some error => .error (.refused error)
      machine := a.machine }

/-- Answers calls one after the other. -/
def callEach (m : Machine ρ) : List Call → List (Response ρ) × Machine ρ
  | [] => ([], m)
  | call :: rest =>
    let r := m.respond call
    let (responses, last) := r.machine.callEach rest
    (r :: responses, last)

/-- A call leads to the same machine as with any other reset. -/
private theorem respond_machine {m : Machine ρ} (h : m.stack.depth = 16) (call : Call) :
    (m.respond call).machine = (m.call call).machine := by
  cases call with
  | reset =>
    rw [respond, resetParts_eq h]
    rfl
  | load program => rfl
  -- Only resets are answered differently; a step gives its result back besides.
  | drive input => cases input <;> rfl

/-- Calls lead to the same machine as with any other reset. -/
theorem callEach_machine {m : Machine ρ} (h : m.WellFormed) (calls : List Call) :
    (m.callEach calls).2 = m.callAll calls := by
  -- Induction on the calls; the stack of each machine on the way has the same depth.
  induction calls generalizing m with
  | nil => rfl
  | cons call rest ih =>
    have hnext := respond_machine h.stack.depth call
    have hwell : (m.call call).machine.WellFormed := callAll_wellFormed h [call]
    rw [← hnext] at hwell
    have hrest := ih hwell
    rw [callAll_cons, ← hnext, ← hrest]
    rfl

/-- A reset is complete. Wherever calls have led a new machine, a reset in place succeeds, leaves
    the random source alone, and makes of it the machine that is built new from that source. So
    whatever is called from then on, call by call the results, the errors and the machines are those
    of the new machine. -/
theorem resetParts_complete (random : ρ) (before : List Call) :
    ∃ start cleared built : Machine ρ,
      build random = .ok start ∧
      let m := (start.callEach before).2
      m.resetParts = .ok cleared ∧ cleared.random = m.random ∧
      build m.random = .ok built ∧ cleared = built ∧
      ∀ calls, cleared.callEach calls = built.callEach calls := by
  have hstart := wellFormed_fresh random
  have hm := callAll_wellFormed hstart before
  rw [← callEach_machine hstart before] at hm
  -- Where the calls led is one machine, of which only its invariant matters.
  generalize hlast : ((fresh random).callEach before).2 = m at hm
  refine ⟨fresh random, m.reset, fresh m.random, build_eq random, ?_⟩
  rw [hlast]
  exact ⟨resetParts_eq hm.stack.depth, m.reset_random, build_eq m.random, rfl, fun _ => rfl⟩

end Machine

end Chip8
