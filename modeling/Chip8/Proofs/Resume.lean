import Chip8.Proofs.Drivers
import Chip8.Proofs.Halting
import Chip8.Proofs.KeyWait

/-!
# Running to a stop

A run goes on until something stops it: a fault, a breakpoint, a key wait that no held key can end,
or its limit. It is compared with the single steps of the session, which know no stops. A run is as
many single steps as it takes to come to a stop, and stopping disturbs nothing, so that several runs
one after the other are single steps too, wherever the breakpoints are.

## Key results

- `Session.course`: what a run and single steps have in common
- `Session.stopIndex`: the single step at which a run stops
- `Session.resumeFrom_course`: a run, compared with single steps
- `Session.resume_eq_steps`: a run and several runs are single steps
-/

namespace Chip8.Debugger.Session

variable {ρ α : Type}

/-! ## What runs and single steps have in common -/

/-- The session without what it only shows: the registers to compare with, and the notice. -/
def course (s : Session ρ) : Session ρ :=
  { s with previous := .zero, notice := .ready }

/-- Sessions on one course differ in what they show. -/
private theorem eq_of_course_eq {s t : Session ρ} (h : s.course = t.course) :
    t = { s with previous := t.previous, notice := t.notice } := by
  obtain ⟨machine, breakpoints, previous, view, held, stepsPerFrame, frameSteps, notice⟩ := s
  simp only [course, Session.mk.injEq] at h
  obtain ⟨rfl, rfl, -, rfl, rfl, rfl, rfl, -⟩ := h
  rfl

/-- Sessions on one course have the same machine, place in the frame, breakpoints and keys. -/
private theorem parts_of_course_eq {s t : Session ρ} (h : s.course = t.course) :
    s.machine = t.machine ∧ s.frameSteps = t.frameSteps ∧ s.breakpoints = t.breakpoints ∧
      s.held = t.held := by
  rw [eq_of_course_eq h]
  exact ⟨rfl, rfl, rfl, rfl⟩

/-- Counting a step keeps to the course. -/
private theorem course_countStep (s : Session ρ) : s.countStep.course = s.course.countStep := by
  unfold countStep course
  split
  · rfl
  · rfl

/-- A session is stuck if its machine waits for a key and the user holds none. -/
private theorem stuckOnKey_iff {s : Session ρ} :
    s.stuckOnKey = true ↔ s.machine.awaitingKey = true ∧ s.held.AllUp := by
  simp only [stuckOnKey, Bool.and_eq_true, Bool.not_eq_true', Vector.any_eq_false, id_eq,
    Bool.not_eq_true, KeyStates.AllUp]
  exact ⟨fun h => ⟨h.1, fun key => h.2 key.val key.isLt⟩,
    fun h => ⟨h.1, fun i hi => h.2 ⟨i, hi⟩⟩⟩

/-- A run that has come here stops before its limit: the machine is halted or at a breakpoint, or
    waits for a key while none is held. -/
def stops (s : Session ρ) : Bool :=
  s.machine.halted || s.atBreakpoint || s.stuckOnKey

section Advancing

variable [ByteSource ρ]

/-! ## Advancing -/

/-- An obstacle is not counted towards the frame. -/
theorem advance_of_obstacle {s : Session ρ} {obstacle : Obstacle}
    (h : (s.machine.hold s.held).step.obstacle = some obstacle) :
    s.advance = ({ s with machine := (s.machine.hold s.held).step.machine }, some obstacle,
      (s.machine.hold s.held).step.note) := by
  have hs : s.stepWithKeys = ({ s with machine := (s.machine.hold s.held).step.machine },
    (s.machine.hold s.held).step.obstacle, (s.machine.hold s.held).step.note) := rfl
  simp only [advance, hs, h]

/-- A completed step is. -/
theorem advance_of_completed {s : Session ρ} (h : (s.machine.hold s.held).step.obstacle = none) :
    s.advance = ({ s with machine := (s.machine.hold s.held).step.machine }.countStep, none,
      (s.machine.hold s.held).step.note) := by
  have hs : s.stepWithKeys = ({ s with machine := (s.machine.hold s.held).step.machine },
    (s.machine.hold s.held).step.obstacle, (s.machine.hold s.held).step.note) := rfl
  simp only [advance, hs, h]

/-- Advancing keeps to the course. -/
theorem advance_course (s : Session ρ) :
    s.course.advance = (s.advance.1.course, s.advance.2) := by
  cases h : (s.machine.hold s.held).step.obstacle with
  | some obstacle =>
    have h' : (s.course.machine.hold s.course.held).step.obstacle = some obstacle := h
    rw [advance_of_obstacle h, advance_of_obstacle h']
    rfl
  | none =>
    have h' : (s.course.machine.hold s.course.held).step.obstacle = none := h
    rw [advance_of_completed h, advance_of_completed h', course_countStep]
    rfl

/-- A single step advances the session. -/
theorem step_course {s : Session ρ} (hf : s.machine.fault = none) :
    (s.step : Reply ρ α).session.course = s.advance.1.course := by
  -- Remembering the registers does not leave the course, and `advance` keeps to it.
  have hremember : s.remember.advance.1.course = s.advance.1.course := by
    have hadvance : s.remember.course.advance = s.course.advance := rfl
    rw [advance_course, advance_course] at hadvance
    exact congrArg Prod.fst hadvance
  rw [← hremember]
  simp only [step, hf]
  cases ha : s.remember.advance with
  | mk after rest =>
    obtain ⟨obstacle, note⟩ := rest
    cases obstacle with
    | none => rfl
    | some obstacle =>
      cases obstacle with
      | fault fault => rfl
      | source error => rfl

/-- A single step keeps to the course. -/
private theorem step_course_eq {s t : Session ρ} (h : s.course = t.course) :
    (s.step : Reply ρ α).session.course = (t.step : Reply ρ α).session.course := by
  -- Sessions on one course are halted together, and then nothing is stepped.
  have ht := eq_of_course_eq h
  cases hf : s.machine.fault with
  | some fault =>
    have hf' : t.machine.fault = some fault := by rw [ht]; exact hf
    simp only [step, hf, hf']
    exact h
  | none =>
    have hf' : t.machine.fault = none := by rw [ht]; exact hf
    rw [step_course hf, step_course hf']
    have hadvance : s.course.advance = t.course.advance := congrArg advance h
    rw [advance_course, advance_course] at hadvance
    exact congrArg Prod.fst hadvance

/-- Single steps keep to the course, however many they are. -/
private theorem after_course_eq {s t : Session ρ} (h : s.course = t.course) (n : Nat) :
    (s.after n).course = (t.after n).course := by
  induction n generalizing s t with
  | zero => exact h
  | succ n ih => exact ih (step_course_eq h)

/-! ## Breakpoints and single steps -/

/-- Advancing pays no attention to breakpoints. -/
private theorem advance_breakpoints (s : Session ρ) (breakpoints : List Address) :
    { s with breakpoints }.advance = ({ s.advance.1 with breakpoints }, s.advance.2) := by
  cases h : (s.machine.hold s.held).step.obstacle with
  | some obstacle => rw [advance_of_obstacle h, advance_of_obstacle (by exact h)]
  | none =>
    rw [advance_of_completed h, advance_of_completed (by exact h)]
    unfold countStep
    split
    · rfl
    · rfl

/-- Single steps pay no attention to breakpoints. -/
private theorem after_breakpoints (s : Session ρ) (breakpoints : List Address) (n : Nat) :
    ({ s with breakpoints }.after n).course = { s.after n with breakpoints }.course := by
  induction n generalizing s with
  | zero => rfl
  | succ n ih =>
    -- Breakpoints are carried along untouched, whether the machine is halted or not.
    have hstep : ({ s with breakpoints }.step : Reply ρ Unit).session.course =
        { (s.step : Reply ρ Unit).session with breakpoints }.course := by
      cases hf : s.machine.fault with
      | some fault => simp only [step, hf]; rfl
      | none =>
        rw [step_course (by exact hf), advance_breakpoints]
        have hcourse := step_course (α := Unit) hf
        exact congrArg (fun t => { t with breakpoints }) hcourse.symm
    exact (after_course_eq hstep n).trans (ih _)

/-! ## Where a run stops -/

/-- How many steps a run takes: up to the first single step that brings the session to a stop, else
    as many as the limit allows; none on a halted machine. -/
def stopIndex (s : Session ρ) (limit : Nat) : Nat :=
  if s.machine.halted then 0
  else ((List.range' 1 limit).find? fun n => (s.after n).stops).getD limit

/-- A run of a halted machine takes no steps. -/
private theorem stopIndex_of_halted {s : Session ρ} {fault : Fault}
    (hf : s.machine.fault = some fault) (limit : Nat) : s.stopIndex limit = 0 := by
  simp only [stopIndex, Machine.halted, hf, Option.isSome_some, if_true]

/-- A run without steps takes none. -/
private theorem stopIndex_zero (s : Session ρ) : s.stopIndex 0 = 0 := by
  unfold stopIndex
  split
  · rfl
  · rfl

/-- A run takes a step, and the steps of the run from there unless it stops there. -/
private theorem stopIndex_succ {s : Session ρ} (hf : s.machine.fault = none) (limit : Nat) :
    s.stopIndex (limit + 1) =
      if (s.after 1).stops then 1 else 1 + (s.after 1).stopIndex limit := by
  have hrunning : s.machine.halted = false := by rw [Machine.halted, hf]; rfl
  -- The candidates are the first step and those of the run that starts behind it.
  have hrange : List.range' 1 (limit + 1) = 1 :: (List.range' 1 limit).map (1 + ·) := by
    rw [List.map_add_range', List.range'_succ]
  have hlater : ∀ n, (s.after (1 + n)).stops = ((s.after 1).after n).stops := by
    intro n
    rw [after_add]
  simp only [stopIndex, hrunning, hrange, List.find?_cons, List.find?_map, Function.comp_def,
    hlater, Bool.false_eq_true, if_false]
  cases hs : (s.after 1).stops with
  | true => rfl
  | false =>
    have hnext : (s.after 1).machine.halted = false := by
      simp only [stops, Bool.or_eq_false_iff] at hs
      exact hs.1.1
    simp only [hnext, Bool.false_eq_true, if_false]
    cases (List.range' 1 limit).find? fun n => ((s.after 1).after n).stops with
    | none => exact Nat.add_comm limit 1
    | some n => rfl

/-- A session that has come to a stop after `steps` steps, and has been told so. -/
inductive Stopped (s : Session ρ) (limit : Int) (steps : Nat) : Prop
  -- The last step raised a fault and did not complete.
  | fault (completed : Nat) (fault : Fault) (last : steps = completed + 1)
      (halted : s.machine.fault = some fault) (told : s.notice = .fatalAfter completed fault)
  | breakpoint (running : s.machine.fault = none) (there : s.machine.pc ∈ s.breakpoints)
      (told : s.notice = .breakpointHit s.machine.pc steps)
  | keyWait (running : s.machine.fault = none) (waiting : s.machine.awaitingKey = true)
      (allUp : s.held.AllUp) (told : s.notice = .waitingForKey s.machine.pc steps)
  | limit (running : s.machine.fault = none) (reached : steps = limit)
      (told : s.notice = .limitReached limit)

end Advancing

variable [RandomSource ρ]

/-- Advancing raises a fault and counts nothing, or counts one instruction. -/
private theorem advance_cases (s : Session ρ) :
    (∃ fault, s.advance.2.1 = some (.fault fault) ∧ s.advance.1.machine.fault = some fault ∧
      s.advance.1.machine.cycles = s.machine.cycles) ∨
    (s.advance.2.1 = none ∧ s.advance.1.machine.fault = none ∧
      s.advance.1.machine.cycles = s.machine.cycles + 1) := by
  cases h : (s.machine.hold s.held).step.obstacle with
  | some obstacle =>
    obtain ⟨fault, rfl⟩ := Machine.exists_fault_of_step_obstacle h
    left
    refine ⟨fault, ?_⟩
    rw [advance_of_obstacle h, Machine.step_machine_of_fault h]
    exact ⟨rfl, rfl, rfl⟩
  | none =>
    obtain ⟨_, hfault, hcycles⟩ := Machine.step_of_completed h
    right
    rw [advance_of_completed h]
    refine ⟨rfl, ?_⟩
    -- The tick that may come at the end of a frame changes neither fault nor count.
    unfold countStep Machine.tick
    split
    · split
      · exact ⟨hfault, hcycles⟩
      · exact ⟨hfault, hcycles⟩
    · exact ⟨hfault, hcycles⟩

/-! ## A run -/

/-- A run of at most `left` further steps goes the way of the single steps up to its stop. -/
theorem resumeFrom_course (limit : Int) (left done : Nat) {s t : Session ρ}
    (notes : Array Note) (hlimit : limit = done + left) (h : s.course = t.course)
    (hf : s.machine.fault = none) :
    let run := (resumeFrom limit left done s notes : Reply ρ α).session
    let steps := t.stopIndex left
    run.course = (t.after steps).course ∧ run.Stopped limit (done + steps) ∧
      run.machine.cycles + (if run.machine.halted then 1 else 0) = s.machine.cycles + steps := by
  -- Induction on the steps left; run and single steps stay on one course.
  induction left generalizing done s t notes with
  | zero =>
    have hrunning : (s.tell (.limitReached limit)).machine.halted = false := by
      show s.machine.fault.isSome = false
      rw [hf]
      rfl
    simp only [resumeFrom, stopIndex_zero, after_zero, hrunning]
    exact ⟨h, .limit hf (by omega) rfl, rfl⟩
  | succ left ih =>
    have ht : t.machine.fault = none := by
      rw [← (parts_of_course_eq h).1]
      exact hf
    -- Both take the next step, the one by `advance` and the other by `step`.
    have hnext : s.advance.1.course = (t.after 1).course := by
      have hadvance : s.course.advance = t.course.advance := congrArg advance h
      rw [advance_course, advance_course] at hadvance
      exact (congrArg Prod.fst hadvance).trans (step_course ht).symm
    have hstops : (t.after 1).stops = s.advance.1.stops := (congrArg stops hnext).symm
    have hcases := s.advance_cases
    rw [stopIndex_succ ht, hstops]
    cases ha : s.advance with
    | mk after rest =>
      obtain ⟨obstacle, note⟩ := rest
      rw [ha] at hnext hcases
      -- The step raises a fault: the run stops, and its last step did not complete.
      obtain ⟨fault, hobstacle, hfault, hcycles⟩ | ⟨hobstacle, hrunning, hcycles⟩ := hcases
      · obtain rfl : obstacle = some (.fault fault) := hobstacle
        have hhalted : after.machine.halted = true := by rw [Machine.halted, hfault]; rfl
        have hstop : after.stops = true := by simp only [stops, hhalted, Bool.true_or]
        simp only [resumeFrom, ha, hstop, if_true]
        refine ⟨hnext, .fault done fault rfl hfault rfl, ?_⟩
        show after.machine.cycles + (if after.machine.halted then 1 else 0) = _
        rw [if_pos hhalted, hcycles]
      -- The step completes: it is at a breakpoint, stuck, or none of both.
      · obtain rfl : obstacle = none := hobstacle
        have hhalted : after.machine.halted = false := by rw [Machine.halted, hrunning]; rfl
        have hcount : after.machine.cycles + (if after.machine.halted then 1 else 0) =
            s.machine.cycles + 1 := by
          rw [hhalted]
          exact hcycles
        simp only [resumeFrom, ha]
        by_cases hb : after.atBreakpoint = true
        · have hstop : after.stops = true := by simp only [stops, hb, Bool.or_true, Bool.true_or]
          simp only [hb, hstop, if_true]
          exact ⟨hnext, .breakpoint hrunning (of_decide_eq_true hb) rfl, hcount⟩
        · by_cases hk : after.stuckOnKey = true
          · have hstop : after.stops = true := by simp only [stops, hk, Bool.or_true]
            obtain ⟨hwait, hup⟩ := stuckOnKey_iff.1 hk
            simp only [hb, hk, hstop, if_true]
            exact ⟨hnext, .keyWait hrunning hwait hup rfl, hcount⟩
          · have hgo : after.stops = false := by
              simp only [stops, hhalted, hb, hk, Bool.or_self]
            simp only [hb, hk, hgo, Bool.false_eq_true, if_false]
            -- The rest of the run starts from here, one step further on.
            obtain ⟨hcourse, hstopped, htotal⟩ :=
              ih (s := after) (done + 1) (addNote notes note) (by omega) hnext hrunning
            have hcycles' : after.machine.cycles = s.machine.cycles + 1 := hcycles
            rw [after_add, ← Nat.add_assoc, htotal]
            exact ⟨hcourse, hstopped, by rw [hcycles', Nat.add_assoc]⟩

/-- A run goes the way of as many single steps as it takes. -/
private theorem resume_course (s : Session ρ) (limit : Nat) :
    (s.resume limit : Reply ρ α).session.course = (s.after (s.stopIndex limit)).course := by
  cases hf : s.machine.fault with
  | some fault =>
    rw [stopIndex_of_halted hf]
    simp only [resume, hf]
    rfl
  | none =>
    simp only [resume, hf]
    exact (resumeFrom_course limit limit 0 (s := s.remember) (t := s) #[] (by omega) rfl hf).1

/-! ## Several runs -/

/-- The session after several runs, each with its own limit. -/
def resumeAll (s : Session ρ) (limits : List Nat) : Session ρ :=
  limits.foldl (fun s (limit : Nat) => (s.resume limit : Reply ρ Unit).session) s

/-- How many steps several runs take. -/
def stepsTaken (s : Session ρ) : List Nat → Nat
  | [] => 0
  | limit :: rest => s.stopIndex limit + (s.resume limit : Reply ρ Unit).session.stepsTaken rest

/-- Several runs go the way of as many single steps as they take together. -/
private theorem resumeAll_course (s : Session ρ) (limits : List Nat) :
    (s.resumeAll limits).course = (s.after (s.stepsTaken limits)).course := by
  -- Induction on the limits: the next run starts where single steps would be as well.
  induction limits generalizing s with
  | nil => rfl
  | cons limit rest ih =>
    have hrest := ih (s.resume limit : Reply ρ Unit).session
    rw [after_course_eq (s.resume_course limit)] at hrest
    rw [stepsTaken, after_add, ← hrest]
    rfl

/-- A run of a session whose machine is not halted is as many single steps as bring it to its first
    stop: the same machine, the same place in the frame, the same breakpoints and held keys. Its
    notice names the stop and the number of steps that completed, by which the count of cycles has
    grown. Several runs, stopped by whatever breakpoints, are as many single steps as they take
    together, and these would go the same way without any breakpoints. -/
theorem resume_eq_steps {s : Session ρ} (running : s.machine.fault = none) (limit : Nat) :
    (let steps := s.stopIndex limit
      let run := (s.resume limit : Reply ρ α).session
      let stepped := s.after steps
      run.machine = stepped.machine ∧ run.frameSteps = stepped.frameSteps ∧
      run.breakpoints = stepped.breakpoints ∧ run.held = stepped.held ∧
      run.Stopped limit steps ∧
      run.machine.cycles + (if run.machine.halted then 1 else 0) = s.machine.cycles + steps) ∧
    ∀ limits,
      let runs := s.resumeAll limits
      let stepped := { s with breakpoints := [] }.after (s.stepsTaken limits)
      runs.machine = stepped.machine ∧ runs.frameSteps = stepped.frameSteps := by
  constructor
  · intro steps run stepped
    -- The run remembers the registers first, which leaves the course as it is.
    have hrun : run = (resumeFrom limit limit 0 s.remember #[] : Reply ρ α).session := by
      show (s.resume limit : Reply ρ α).session = _
      simp only [resume, running]
      rfl
    obtain ⟨hcourse, hstopped, hcycles⟩ :=
      resumeFrom_course (α := α) limit limit 0 (s := s.remember) (t := s) #[] (by omega) rfl
        running
    rw [← hrun] at hcourse hstopped hcycles
    rw [Nat.zero_add] at hstopped
    obtain ⟨hmachine, hframe, hbreak, hheld⟩ := parts_of_course_eq hcourse
    exact ⟨hmachine, hframe, hbreak, hheld, hstopped, hcycles⟩
  -- The single steps of the runs, and then those without breakpoints.
  · intro limits runs stepped
    obtain ⟨hmachine, hframe, -, -⟩ := parts_of_course_eq (s.resumeAll_course limits)
    obtain ⟨hmachine', hframe', -, -⟩ :=
      parts_of_course_eq (s.after_breakpoints [] (s.stepsTaken limits))
    exact ⟨hmachine.trans hmachine'.symm, hframe.trans hframe'.symm⟩

/-- A loop of three instructions with a breakpoint at its head, where it starts: the run comes round
    once, and a second run and one further step make seven single steps. -/
theorem resume_eq_steps_loop :
    let program := [0x70, 0x01, 0x71, 0x02, 0x12, 0x00]
    let s : Session Twister :=
      { machine := (Machine.fresh (Twister.ofSeed 0)).callAll [.load program]
        breakpoints := [0x200] }
    (s.resume (10 : Nat) : Reply Twister Unit).session.machine = (s.after 3).machine ∧
      (s.resume (10 : Nat) : Reply Twister Unit).session.Stopped (10 : Nat) 3 ∧
      (s.resumeAll [10, 10, 1]).machine = ({ s with breakpoints := [] }.after 7).machine := by
  intro program s
  obtain ⟨hfault, hsteps, htotal⟩ : s.machine.fault = none ∧ s.stopIndex 10 = 3 ∧
      s.stepsTaken [10, 10, 1] = 7 := by
    decide +kernel
  obtain ⟨⟨hmachine, -, -, -, hstopped, -⟩, hruns⟩ :=
    resume_eq_steps (α := Unit) (s := s) hfault 10
  have hlast := (hruns [10, 10, 1]).1
  rw [hsteps] at hmachine hstopped
  rw [htotal] at hlast
  exact ⟨hmachine, hstopped, hlast⟩

end Chip8.Debugger.Session
