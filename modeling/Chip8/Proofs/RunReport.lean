import Chip8.CommandLine.Program
import Chip8.Proofs.Halting
import Chip8.Proofs.Pictures
import Mathlib.Algebra.GroupWithZero.Nat
import Mathlib.Order.Basic

/-!
# The report of a run

A run counts frames, and in each frame steps; what it reports are the steps in the end. Seen from
the steps there are no frames, only a tick behind every so many of them. The two agree up to the
first step that meets an obstacle, in whatever frame that is and wherever in it, and there both
stop. As the only obstacles are faults, a run that was begun ends in one of two ways, and with a
report that counts the steps and shows the display at that point.

## Key results

- `Run.frames_of_completesFramed`, `Run.frames_of_first_obstacle`: frames, counted in steps
- `CommandLine.reports_runTranscript`: the two reports of a run
- `CommandLine.transcript_run`: all that a command line that runs a ROM can lead to
-/

namespace Chip8

namespace Machine

variable {ρ : Type} [ByteSource ρ] {m : Machine ρ} {size : Nat}

/-! ## Steps with ticks between them -/

/-- The machine after some steps, with a tick behind every `size` of them. -/
def framed (size : Nat) (m : Machine ρ) : (steps : Nat) → Machine ρ
  | 0 => m
  | steps + 1 =>
    let after := (m.framed size steps).step.machine
    if (steps + 1) % size = 0 then after.tick else after

/-- These steps meet no obstacle. -/
def CompletesFramed (size : Nat) (m : Machine ρ) (steps : Nat) : Prop :=
  ∀ k < steps, (m.framed size k).step.obstacle = none

instance (m : Machine ρ) (steps : Nat) : Decidable (m.CompletesFramed size steps) :=
  inferInstanceAs (Decidable (∀ k < steps, (m.framed size k).step.obstacle = none))

/-- Within the first frame there is no tick. -/
private theorem framed_of_lt {k : Nat} (h : k < size) : m.framed size k = m.after k := by
  -- Induction on the step: below `size` no number of steps is a multiple of it.
  induction k with
  | zero => rfl
  | succ k ih =>
    have hmod : (k + 1) % size ≠ 0 := by
      rw [Nat.mod_eq_of_lt h]
      omega
    rw [framed, if_neg hmod, ih (by omega), after_succ']

/-- The first frame ends with a tick. -/
private theorem framed_size (h : 0 < size) : m.framed size size = (m.after size).tick := by
  obtain ⟨last, rfl⟩ : ∃ last, size = last + 1 := ⟨size - 1, by omega⟩
  rw [framed, if_pos (Nat.mod_self _), framed_of_lt (Nat.lt_succ_self last), after_succ']

/-- Behind the first frame the count begins anew. -/
private theorem framed_add (k : Nat) :
    m.framed size (size + k) = (m.framed size size).framed size k := by
  -- Induction on the steps behind the frame; a whole frame more does not change the remainder.
  induction k with
  | zero => rfl
  | succ k ih =>
    have hmod : (size + k + 1) % size = (k + 1) % size := by
      rw [Nat.add_assoc, Nat.add_mod_left]
    rw [← Nat.add_assoc, framed, hmod, ih]
    rfl

/-- Steps that complete are counted and leave the machine running. -/
private theorem framed_of_completesFramed (hm : m.fault = none) {n : Nat}
    (h : m.CompletesFramed size n) :
    (m.framed size n).fault = none ∧ (m.framed size n).cycles = m.cycles + n := by
  induction n with
  | zero => exact ⟨hm, rfl⟩
  | succ n ih =>
    obtain ⟨-, hcycles⟩ := ih fun k hk => h k (by omega)
    obtain ⟨-, hfault, hcount⟩ := step_of_completed (h n (by omega))
    have htotal : (m.framed size n).step.machine.cycles = m.cycles + (n + 1) := by omega
    -- A tick only moves the timers, so the two branches of `framed` agree on fault and count.
    have htick (after : Machine ρ) :
        after.tick.fault = after.fault ∧ after.tick.cycles = after.cycles := by
      unfold tick
      split
      · exact ⟨rfl, rfl⟩
      · exact ⟨rfl, rfl⟩
    rw [framed]
    split
    · exact ⟨(htick _).1.trans hfault, (htick _).2.trans htotal⟩
    · exact ⟨hfault, htotal⟩

/-- The first frame of steps that complete. -/
theorem CompletesFramed.first {n : Nat} (h : m.CompletesFramed size (size + n)) :
    m.Completes size := by
  intro k hk
  rw [← framed_of_lt hk]
  exact h k (by omega)

/-- The steps behind the first frame. -/
private theorem CompletesFramed.rest {n : Nat} (h : m.CompletesFramed size (size + n)) :
    (m.framed size size).CompletesFramed size n := by
  intro k hk
  rw [← framed_add]
  exact h (size + k) (by omega)

end Machine

/-! ## Frames, counted in steps -/

namespace Run

variable {ρ : Type} [ByteSource ρ] {r : Run ρ} {size : Nat}

/-- A frame that meets no obstacle, and the frames behind it. -/
private theorem exists_frames_succ_of_completes (hsize : 0 < size) (h : r.obstacle = none)
    (hc : r.machine.Completes size) :
    ∃ next : Run ρ, next.obstacle = none ∧ next.machine = r.machine.framed size size ∧
      ∀ count, frames size (count + 1) r = frames size count next := by
  obtain ⟨-, next, ho, hm, hnext⟩ | ⟨hnot, -⟩ := frames_cases size h
  · exact ⟨next, ho, hm.trans (Machine.framed_size hsize).symm, hnext⟩
  · exact absurd hc hnot

/-- Frames whose steps all complete. -/
theorem frames_of_completesFramed (hsize : 0 < size) (h : r.obstacle = none) {count : Nat}
    (hc : r.machine.CompletesFramed size (count * size)) :
    (frames size count r).obstacle = none ∧
      (frames size count r).machine = r.machine.framed size (count * size) := by
  -- Induction on the frames, for every run: each frame hands on the run behind its tick.
  induction count generalizing r with
  | zero =>
    rw [Nat.zero_mul]
    exact ⟨h, rfl⟩
  | succ count ih =>
    -- One frame and the rest, in the order in which `framed_add` cuts them.
    rw [Nat.succ_mul, Nat.add_comm] at hc
    obtain ⟨next, ho, hm, hnext⟩ := exists_frames_succ_of_completes hsize h hc.first
    have hrest := hc.rest
    rw [← hm] at hrest
    rw [hnext, Nat.succ_mul, Nat.add_comm, Machine.framed_add, ← hm]
    exact ih ho hrest

/-- Frames of which a step meets an obstacle end there, whichever frame it is in. -/
theorem frames_of_first_obstacle (hsize : 0 < size) (h : r.obstacle = none) {count j : Nat}
    {obstacle : Obstacle} (hj : j < count * size) (hc : r.machine.CompletesFramed size j)
    (ho : (r.machine.framed size j).step.obstacle = some obstacle) :
    (frames size count r).obstacle = some obstacle ∧
      (frames size count r).machine = (r.machine.framed size j).step.machine := by
  -- Induction on the frames; the obstacle is in the first one, or the count begins anew behind
  -- it.
  induction count generalizing r j with
  | zero => omega
  | succ count ih =>
    rw [Nat.succ_mul] at hj
    by_cases hfirst : j < size
    · -- The first frame is the last one.
      have hcompletes : r.machine.Completes j := by
        intro k hk
        rw [← Machine.framed_of_lt (by omega : k < size)]
        exact hc k hk
      rw [Machine.framed_of_lt hfirst] at ho ⊢
      obtain ⟨hobstacle, hmachine⟩ := steps_of_first_obstacle h hcompletes ho hfirst
      have hframe : frame size r = steps size r := by
        simp only [frame, Int.toNat_natCast, hobstacle]
      have hstops : (steps size r).obstacle ≠ none := by
        rw [hobstacle]
        exact Option.some_ne_none obstacle
      rw [frames_succ _ _ h, hframe, frames_of_obstacle _ _ hstops]
      exact ⟨hobstacle, hmachine⟩
    · obtain ⟨k, rfl⟩ : ∃ k, j = size + k := ⟨j - size, by omega⟩
      obtain ⟨next, hnone, hm, hnext⟩ := exists_frames_succ_of_completes hsize h hc.first
      have hrest := hc.rest
      rw [Machine.framed_add] at ho ⊢
      rw [← hm] at hrest ho ⊢
      rw [hnext]
      exact ih hnone (by omega) hrest ho

end Run

/-! ## What a report shows -/

namespace Fault

/-- What a fault is about, without its address. -/
def cause : Fault → String
  | .stackUnderflow _ => "Return with empty call stack"
  | .stackOverflow _ depth => s!"Call stack overflow (depth {depth})"

/-- The wording of a fault is its cause and its address. -/
private theorem message_eq {f : Fault} {a : Address} (h : f.pc = a.val) :
    f.message = f.cause ++ (" at " ++ a.text) := by
  -- The words in front of the digits are taken apart, the digits stay whole.
  -- Only the words in front of the digits differ between the two faults.
  have hsplit {words first : String} (hwords : words = first ++ (" at " ++ "0x")) :
      words ++ Text.hex 3 a.val = first ++ (" at " ++ a.text) := by
    rw [hwords, String.append_assoc, String.append_assoc]
    rfl
  cases f with
  | stackUnderflow pc =>
    have hwords : "Return with empty call stack at 0x" =
        "Return with empty call stack" ++ (" at " ++ "0x") := by decide +kernel
    obtain rfl : pc = a.val := h
    exact hsplit hwords
  | stackOverflow pc depth =>
    have hwords : ") at 0x" = ")" ++ (" at " ++ "0x") := by decide +kernel
    obtain rfl : pc = a.val := h
    exact hsplit ((congrArg _ hwords).trans (String.append_assoc ..).symm)

end Fault

/-- The display of a machine, line by line: `#` for a pixel that is on, `.` for one that is off. -/
def Machine.displayRows {ρ : Type} (m : Machine ρ) : List (List Char) :=
  (List.finRange 32).map fun y => (List.finRange 64).map fun x =>
    if m.screen.get x y then '#' else '.'

/-- The text of a screen shows the display. -/
private theorem CommandLine.screenLine_eq {ρ : Type} (m : Machine ρ) :
    screenLine m = Picture.joinLines m.displayRows := by
  have hrows : m.screen.toLists =
      (List.finRange 32).map fun y => (List.finRange 64).map fun x => m.screen.get x y := by
    apply List.ext_getElem
    · simp [Framebuffer.toLists]
    · intro y hy hy'
      apply List.ext_getElem
      · simp [Framebuffer.toLists]
      · intro x hx hx'
        simp [Framebuffer.toLists, Framebuffer.get]
  rw [screenLine, Picture.characters_eq, hrows, Machine.displayRows, List.map_map]
  simp only [Function.comp_def, List.map_map]
  rfl

/-! ## The start of a run -/

namespace KeyStates

/-- The keys of a list are held, and no others. -/
theorem get_holding (keys : List Nibble) (key : Nibble) :
    (holding keys).get key = true ↔ key ∈ keys := by
  have hset (states : KeyStates) (first : Nibble) :
      (Vector.set states first.val true first.isLt).get key =
        if first.val = key.val then true else states.get key :=
    Vector.getElem_set ..
  -- The fold sets one key after the other, so that a key is held from the first time it occurs.
  have hfold (states : KeyStates) :
      (keys.foldl (fun states key => Vector.set states key.val true key.isLt) states).get key =
        true ↔ states.get key = true ∨ key ∈ keys := by
    induction keys generalizing states with
    | nil => simp
    | cons first rest ih =>
      rw [List.foldl_cons, ih, hset, List.mem_cons]
      by_cases hfirst : key = first
      · simp [hfirst]
      · have hne : first.val ≠ key.val := fun h => hfirst (Fin.ext h.symm)
        simp [hfirst, hne]
  have hnone : none.get key ≠ true := by
    rw [show none.get key = false from Vector.getElem_replicate _]
    exact Bool.false_ne_true
  exact (hfold none).trans (or_iff_right hnone)

end KeyStates

/-- The machine that a run begins with: new, with a program, and with keys held. -/
def Machine.begun {ρ : Type} [ByteSource ρ] (random : ρ) (program : List UInt8)
    (keys : List Nibble) : Machine ρ :=
  (fresh random).callAll
    [.load program, .drive (.keys ((List.finRange 16).map fun key => decide (key ∈ keys)))]

/-- A run begins with a new machine whose memory holds the program and whose keys are held. -/
private theorem Machine.exists_begun_eq {ρ : Type} [ByteSource ρ] (random : ρ)
    {program : List UInt8} (h : program.length ≤ programLimit) (keys : List Nibble) :
    ∃ memory : Ram,
      (fresh random).loadProgram program =
        .ok ({ fresh random with memory }, .programLoaded program.length) ∧
      begun random program keys = hold { fresh random with memory } (.holding keys) := by
  -- Held keys, written out as the list of sixteen states that a host would hand over.
  have hkeys : (KeyStates.holding keys).toList =
      (List.finRange 16).map fun key => decide (key ∈ keys) := by
    apply List.ext_getElem
    · simp
    · intro i hi hi'
      simp only [Vector.length_toList] at hi
      simp only [Vector.getElem_toList, List.getElem_map, List.getElem_finRange]
      have hheld := KeyStates.get_holding keys ⟨i, hi⟩
      rw [Bool.eq_iff_iff, decide_eq_true_eq]
      exact hheld
  obtain ⟨memory, hload⟩ : ∃ memory, (fresh random).loadProgram program =
      .ok ({ fresh random with memory }, .programLoaded program.length) :=
    ⟨_, by rw [loadProgram, if_neg (by omega)]⟩
  refine ⟨memory, hload, ?_⟩
  obtain ⟨_, held, hheld, hset⟩ | ⟨hlength, _⟩ :=
    setKeys?_cases { fresh random with memory } (KeyStates.holding keys).toList
  -- The list has sixteen entries, so that it is taken and not refused.
  · rw [Vector.toList_inj.1 hheld] at hset
    simp only [begun, callAll_cons, callAll_nil, call, hload, ← hkeys, feed, hset]
  · exact absurd Vector.length_toList hlength

/-! ## The two reports -/

namespace Machine

variable {ρ : Type} {m : Machine ρ} {size : Nat}

/-- No frame takes a well-formed machine out of its ranges. -/
theorem WellFormed.framed [ByteSource ρ] (h : m.WellFormed) (steps : Nat) :
    (m.framed size steps).WellFormed := by
  induction steps with
  | zero => exact h
  | succ steps ih =>
    rw [Machine.framed]
    split
    · exact ih.step.tick
    · exact ih.step

/-- A first obstacle is a fault that names the address at which it was raised. -/
private theorem exists_fault_of_first_framed_obstacle [RandomSource ρ] (h : m.WellFormed)
    (hf : m.fault = none) {j : Nat} (hc : m.CompletesFramed size j) {obstacle : Obstacle}
    (ho : (m.framed size j).step.obstacle = some obstacle) :
    ∃ fault, obstacle = .fault fault ∧ fault.pc = (m.framed size j).pc.val ∧
      (m.framed size j).step.machine = { m.framed size j with fault := some fault } := by
  obtain ⟨fault, rfl⟩ := exists_fault_of_step_obstacle ho
  have hfault := (framed_of_completesFramed hf hc).1
  have hraises := (step_obstacle_eq_fault_iff (h.framed j) hfault).1 ho
  exact ⟨fault, rfl, hraises.pc_eq, step_machine_of_fault ho⟩

end Machine

namespace CommandLine

/-- What a run of `count` frames of `size` steps reports, behind what was reported before it: it
    either completes all its steps, or ends before one that faults. -/
inductive Reports {ρ : Type} [ByteSource ρ] (level : Level) (before : List String)
    (count size : Nat) (start : Machine ρ) : Transcript → Prop
  -- All steps complete.
  | completed {last : Machine ρ} {notes : Array Note} {state : String} :
    start.CompletesFramed size (count * size) →
    start.framed size (count * size) = last →
    state = (if last.awaitingKey then "awaiting key" else "running") →
    Reports level before count size start
      { output := [Picture.joinLines last.displayRows]
        errors := before ++ Note.lines level notes ++
          [s!"Ran {count * size} cycles over {count} frames ({state}).",
            "  PC = " ++ last.pc.text ++ "  I = " ++ last.index.text]
        ending := .exit 0 }
  -- The step behind the first `j` is the first one that faults.
  | halted {j : Nat} {last : Machine ρ} {fault : Fault} {notes : Array Note} :
    j < count * size →
    start.CompletesFramed size j →
    start.framed size j = last →
    last.step.obstacle = some (.fault fault) →
    Reports level before count size start
      { output := [Picture.joinLines last.displayRows]
        errors := before ++ Note.lines level notes ++
          [s!"Halted after {j} cycles at " ++ last.pc.text ++ ".",
            "Error: " ++ (fault.cause ++ (" at " ++ last.pc.text))]
        ending := .exit 1 }

/-- A natural number is written in the same way as an integer. -/
theorem toString_natCast (n : Nat) : toString (n : Int) = toString n := rfl

/-- Frames that were run are reported in one of the two ways. -/
theorem reports_runTranscript {ρ : Type} [RandomSource ρ] {start : Machine ρ}
    (h : start.WellFormed) (hf : start.fault = none) (hcycles : start.cycles = 0) {size : Nat}
    (hsize : 0 < size) (level : Level) (before : List String) (count : Nat) :
    Reports level before count size start
      (runTranscript count before level (Run.frames size count (.start start))) := by
  -- The run is named first: the two cases then rewrite its parts and not the frames in it.
  generalize hrun : Run.frames size count (.start start) = run
  by_cases hc : start.CompletesFramed size (count * size)
  · have hcount := (Machine.framed_of_completesFramed hf hc).2
    rw [hcycles, Nat.zero_add] at hcount
    obtain ⟨hnone, hmachine⟩ := Run.frames_of_completesFramed (r := .start start) hsize rfl hc
    rw [hrun, Run.start] at hmachine
    rw [hrun] at hnone
    simp only [runTranscript, hnone, hmachine, screenLine_eq, hcount, toString_natCast]
    exact .completed hc rfl rfl
  -- Some step does not complete, and the first such one is where the report was cut off.
  · obtain ⟨j, hj, hfirst, obstacle, ho⟩ := exists_first_eq_some _ hc
    obtain ⟨fault, rfl, hpc, hstored⟩ :=
      Machine.exists_fault_of_first_framed_obstacle h hf hfirst ho
    have hcount := (Machine.framed_of_completesFramed hf hfirst).2
    rw [hcycles, Nat.zero_add] at hcount
    obtain ⟨hsome, hmachine⟩ :=
      Run.frames_of_first_obstacle (r := .start start) hsize rfl hj hfirst ho
    rw [hrun, Run.start, hstored] at hmachine
    rw [hrun] at hsome
    -- The fault that was stored shows neither on the display nor in the counts.
    have hrows : run.machine.displayRows = (start.framed size j).displayRows := by
      rw [hmachine]
      rfl
    have hcycles : run.machine.cycles = j := by
      rw [hmachine]
      exact hcount
    have hat : run.machine.pc = (start.framed size j).pc := by rw [hmachine]
    simp only [runTranscript, hsome, screenLine_eq, errorLine, Fault.message_eq hpc, hrows, hcycles,
      hat]
    exact .halted hj hfirst rfl ho

/-! ## Command lines -/

variable {w : Surroundings} {level : Level} {rom : String} {content : List UInt8}

/-- The refusal of a program names the limit. -/
private theorem message_programTooLarge (size : Nat) :
    ProgramTooLarge.message ⟨size⟩ = s!"ROM is {size} bytes, maximum is 3584" := by
  have hlimit : " bytes, maximum is " ++ toString programLimit = " bytes, maximum is 3584" := by
    decide +kernel
  exact (String.append_assoc ..).trans (congrArg ("ROM is " ++ toString size ++ ·) hlimit)

/-- A ROM that does not fit is refused before anything else happens. -/
private theorem runRom_of_large (hfile : w.files rom = .ok content)
    (hlarge : programLimit < content.length) (frames steps seed : Option Int) (keys : List Nibble) :
    runRom w level rom frames steps seed keys =
      { errors := ["Error: " ++ s!"ROM is {content.length} bytes, maximum is 3584"]
        ending := .exit 1 } := by
  have hread : Rom.read w.files rom = .error (.tooLarge ⟨content.length⟩) := by
    simp only [Rom.read, hfile, mapError_ok, ok_bind, if_pos hlarge]
  have hload : Rom.load w.files rom (.fresh (w.random seed)) =
      .error (.tooLarge ⟨content.length⟩) := by
    rw [Rom.load, hread]
    rfl
  rw [← message_programTooLarge, runRom, hload]
  rfl

/-- A ROM that fits is run with its keys held. -/
private theorem runRom_of_fits (hfile : w.files rom = .ok content)
    (hfits : content.length ≤ programLimit)
    (frames steps : Int) (seed : Option Int) (keys : List Nibble) :
    ∃ notes : Array Note,
      runRom w level rom (some frames) (some steps) seed keys =
        runTranscript frames
          (Note.lines level notes ++ [s!"Loaded {content.length} bytes from {rom} at 0x200"]) level
          (Run.frames steps frames.toNat
            (.start (Machine.begun (w.random seed) content keys))) := by
  obtain ⟨memory, hload, hbegun⟩ := Machine.exists_begun_eq (w.random seed) hfits keys
  have hread : Rom.read w.files rom = .ok (content, Rom.notes rom content.length) := by
    simp only [Rom.read, hfile, mapError_ok, ok_bind, if_neg (Nat.not_lt.2 hfits)]
    rfl
  refine ⟨(Rom.notes rom content.length).push (.programLoaded content.length), ?_⟩
  simp only [runRom, Rom.load, hread, hload, mapError_ok, ok_bind, hbegun]
  rfl

/-- What a command line that runs a ROM comes to once the file has been read. Content that does not
    fit is refused: nothing is run or shown, and the program fails. Other content is run from a new
    machine with the keys held, as many frames of as many steps as were asked for. Either all these
    steps complete: then the display after them is shown, the steps and frames are reported, and the
    program succeeds. Or a first one faults: then the display before it is shown, the steps that
    completed and the address of the fault are reported, and then the fault, which names the same
    address, and the program fails. There is no third way. -/
theorem transcript_run {words : List String} {frames steps seed : Setting Int}
    {keys : List Nibble} {count size : Nat} {value : Option Int}
    (hwords : Invocation.ofWords words =
      .ok (.perform (some level) (some (.run rom frames steps seed keys))))
    (hframes : frames.orDefault defaultFrames = some (count : Int))
    (hsteps : steps.orDefault defaultSteps = some (size : Int)) (hsize : 1 ≤ size)
    (hseed : seed.orOpen = some value) (hfile : w.files rom = .ok content) :
    if 3584 < content.length then
      transcript w words =
        { errors := ["Error: " ++ s!"ROM is {content.length} bytes, maximum is 3584"]
          ending := .exit 1 }
    else
      ∃ notes : Array Note,
        Reports level
          (Note.lines level notes ++ [s!"Loaded {content.length} bytes from {rom} at 0x200"])
          count size (Machine.begun (w.random value) content keys) (transcript w words) := by
  -- Every setting has a value, so that nothing but the run is left of the command line.
  have hperform : transcript w words =
      runRom w level rom (some (count : Int)) (some (size : Int)) value keys := by
    simp only [transcript, hwords, perform, hframes, hsteps, hseed]
  rw [hperform]
  split
  · rename_i hlarge
    exact runRom_of_large hfile hlarge _ _ value keys
  · rename_i hfits
    obtain ⟨notes, hrun⟩ := runRom_of_fits hfile (Nat.not_lt.1 hfits) count size value keys
    refine ⟨notes, ?_⟩
    obtain ⟨memory, -, hbegun⟩ :=
      Machine.exists_begun_eq (w.random value) (Nat.not_lt.1 hfits) keys
    have hwell : (Machine.begun (w.random value) content keys).WellFormed :=
      Machine.callAll_wellFormed (Machine.wellFormed_fresh _) _
    have hfault : (Machine.begun (w.random value) content keys).fault = none := by
      -- The machine is new apart from its memory and its keys.
      rw [hbegun]
      rfl
    have hcycles : (Machine.begun (w.random value) content keys).cycles = 0 := by
      rw [hbegun]
      rfl
    rw [hrun, Int.toNat_natCast]
    exact reports_runTranscript hwell hfault hcycles hsize level _ count

/-- What is known of the value of a computation that may fail is known of the computation. -/
theorem eq_ok_of_toOption {ε α : Type} {x : Except ε α} {a : α} (h : x.toOption = some a) :
    x = .ok a := by
  cases x with
  | error e => cases h
  | ok b =>
    cases h
    rfl

/-- A program skips a jump while `A` is held, and then returns without a call. Run for three frames
    of two steps, it ends in the middle of the second frame. -/
theorem transcript_run_midFrame :
    ∃ (w : Surroundings) (words : List String) (content : List UInt8),
      words = ["run", "skip.ch8", "--frames", "3", "--steps-per-frame", "2", "--keys", "A"] ∧
      content = [0x60, 0x0A, 0xE0, 0x9E, 0x12, 0x04, 0xF0, 0x15, 0x00, 0xEE] ∧
      w.files "skip.ch8" = .ok content ∧
      ∃ before last : List String,
        (transcript w words).errors = before ++ last ∧
        last = ["Halted after 3 cycles at 0x208.",
          "Error: Return with empty call stack at 0x208"] ∧
        (transcript w words).ending = .exit 1 := by
  let content : List UInt8 := [0x60, 0x0A, 0xE0, 0x9E, 0x12, 0x04, 0xF0, 0x15, 0x00, 0xEE]
  let w : Surroundings :=
    { files := fun _ => .ok content, random := fun seed => .ofSeed (seed.getD 0) }
  have hwords : Invocation.ofWords
      ["run", "skip.ch8", "--frames", "3", "--steps-per-frame", "2", "--keys", "A"] =
      .ok (.perform (some .warning)
        (some (.run "skip.ch8" (.value 3) (.value 2) .absent [0xA]))) := by
    apply eq_ok_of_toOption
    decide +kernel
  have hframes : (Setting.value (3 : Int)).orDefault defaultFrames = some ((3 : Nat) : Int) := rfl
  have hsteps : (Setting.value (2 : Int)).orDefault defaultSteps = some ((2 : Nat) : Int) := rfl
  have hreport := transcript_run (w := w) hwords hframes hsteps (by decide) rfl rfl
  rw [if_neg (by decide)] at hreport
  obtain ⟨notes, hreport⟩ := hreport
  refine ⟨w, _, content, rfl, rfl, rfl, ?_⟩
  generalize transcript w _ = t at hreport ⊢
  -- The fourth step is the first one that faults.
  obtain ⟨hthree, hfault, hpc⟩ :
      (Machine.begun (w.random none) content [0xA]).CompletesFramed 2 3 ∧
      ((Machine.begun (w.random none) content [0xA]).framed 2 3).step.obstacle =
        some (.fault (.stackUnderflow 0x208)) ∧
      ((Machine.begun (w.random none) content [0xA]).framed 2 3).pc = 0x208 := by
    decide +kernel
  cases hreport with
  | completed hall _ _ => exact absurd ((hall 3 (by decide)).symm.trans hfault) nofun
  | @halted j last fault notes _ hfirst hlast ho =>
    subst hlast
    obtain hlt | rfl | hgt := Nat.lt_trichotomy j 3
    · exact absurd ((hthree j hlt).symm.trans ho) nofun
    · cases hfault.symm.trans ho
      rw [hpc]
      exact ⟨_, _, rfl, by decide +kernel, rfl⟩
    · exact absurd ((hfirst 3 hgt).symm.trans hfault) nofun

end CommandLine

end Chip8
