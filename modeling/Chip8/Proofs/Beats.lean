import Chip8.Proofs.Calls

/-!
# Beats of a timed run

A timed run at `hz` steps a second goes frame by frame, sixty frames a second. A step costs sixty
sixtieths and every frame earns `hz` of them, so that the `n`-th step is taken in frame
`⌈60 n / hz⌉`; every frame ends with a tick. This fixes the order of steps and ticks. The timetable
lists the beats in this order, for so many steps and ticks.

## Key results

- `frameOf`, `frameOf_le_iff`: the frame of a step
- `Beat.OnSchedule`, `Beat.timetable_spec`: the timetable is on schedule and has as many beats as it
  should
- `Beat.timetable_prefix`, `Beat.timetable_ends`: where frames begin
- `Machine.play`: the machine after some beats
-/

namespace Chip8

/-! ## Frames -/

/-- The frame in which a timed run at `hz` takes its `n`-th step, both counted from one: a step
    costs sixty sixtieths, of which every frame earns `hz`. -/
def frameOf (hz n : Nat) : Nat :=
  (60 * n + hz - 1) / hz

section Frames

variable {hz n frames : Nat}

/-- Frames bring a step as soon as they have earned it. -/
theorem frameOf_le_iff (hhz : 1 ≤ hz) : frameOf hz n ≤ frames ↔ 60 * n ≤ frames * hz := by
  have hnext : (frames + 1) * hz = frames * hz + hz := Nat.succ_mul frames hz
  -- The division rounds up: `frameOf` is at most `frames` if its numerator is less than the next
  -- product.
  rw [frameOf, ← Nat.lt_add_one_iff, Nat.div_lt_iff_lt_mul hhz]
  omega

/-- A step is taken later than the frames that have not earned it. -/
theorem lt_frameOf_iff (hhz : 1 ≤ hz) : frames < frameOf hz n ↔ frames * hz < 60 * n := by
  have hle : frameOf hz n ≤ frames ↔ 60 * n ≤ frames * hz := frameOf_le_iff hhz
  omega

/-- A step is taken in the first frame that has earned it. -/
theorem frameOf_eq (hhz : 1 ≤ hz) (hearly : frames * hz < 60 * n)
    (hroom : 60 * n ≤ (frames + 1) * hz) : frameOf hz n = frames + 1 :=
  Nat.le_antisymm ((frameOf_le_iff hhz).2 hroom) ((lt_frameOf_iff hhz).2 hearly)

/-- No steps need no frames. -/
theorem frameOf_zero (hhz : 1 ≤ hz) : frameOf hz 0 = 0 :=
  Nat.le_zero.1 ((frameOf_le_iff hhz).2 (Nat.zero_le _))

/-- Frames are counted from one, and so the first step is not taken before the first. -/
theorem frameOf_pos (hhz : 1 ≤ hz) (hn : 1 ≤ n) : 1 ≤ frameOf hz n := by
  refine (lt_frameOf_iff hhz).2 ?_
  omega

/-- Later steps are taken in later frames, or in the same one. -/
theorem frameOf_mono (hhz : 1 ≤ hz) {k : Nat} (h : k ≤ n) : frameOf hz k ≤ frameOf hz n := by
  have hn := (frameOf_le_iff (n := n) hhz).1 (Nat.le_refl _)
  exact (frameOf_le_iff hhz).2 (by omega)

end Frames

/-! ## Beats -/

/-- What a timed run does to its machine. -/
inductive Beat
  | step
  | tick
deriving DecidableEq, Repr

namespace Beat

/-- Beats on schedule: there is a tick at the end of every frame, and a step has as many ticks
    before it as there are frames before its own. -/
inductive OnSchedule (hz : Nat) : List Beat → Prop
  | start : OnSchedule hz []
  | tick {beats : List Beat} (earlier : OnSchedule hz beats) : OnSchedule hz (beats ++ [.tick])
  | step {beats : List Beat} (earlier : OnSchedule hz beats)
    (earned : beats.count .tick + 1 = frameOf hz (beats.count .step + 1)) :
    OnSchedule hz (beats ++ [.step])

/-- The beats on schedule with so many steps and ticks. -/
def timetable (hz : Nat) : (steps ticks : Nat) → List Beat
  | 0, ticks => List.replicate ticks tick
  | n + 1, ticks =>
    timetable hz n (frameOf hz (n + 1) - 1) ++
      step :: List.replicate (ticks - (frameOf hz (n + 1) - 1)) tick

variable {hz n ticks : Nat}

/-- A tick more is a beat more, if the steps so far have had their frames. -/
theorem timetable_add_tick (h : frameOf hz n ≤ ticks + 1) :
    timetable hz n (ticks + 1) = timetable hz n ticks ++ [tick] := by
  cases n with
  -- The ticks behind the last step are replicated, so that one more goes to their end.
  | zero => exact List.replicate_succ'
  | succ n =>
    have hcount : ticks + 1 - (frameOf hz (n + 1) - 1) = ticks - (frameOf hz (n + 1) - 1) + 1 := by
      omega
    rw [timetable, timetable, hcount, List.replicate_succ', List.append_assoc, List.cons_append]

/-- A step more is a beat more, if the ticks so far are those of the frames before it. -/
theorem timetable_add_step (h : frameOf hz (n + 1) = ticks + 1) :
    timetable hz (n + 1) ticks = timetable hz n ticks ++ [step] := by
  rw [timetable, h, Nat.add_sub_cancel, Nat.sub_self, List.replicate_zero]

/-- The timetable grows by one beat at a time. -/
theorem timetable_induction (hhz : 1 ≤ hz) {P : List Beat → Nat → Nat → Prop} (start : P [] 0 0)
    (addTick : ∀ beats n ticks, P beats n ticks → P (beats ++ [tick]) n (ticks + 1))
    (addStep : ∀ beats n ticks, frameOf hz (n + 1) = ticks + 1 → P beats n ticks →
      P (beats ++ [step]) (n + 1) ticks) (h : frameOf hz n ≤ ticks + 1) :
    P (timetable hz n ticks) n ticks := by
  -- Induction on the steps, and for each of them on the ticks that follow it.
  induction n generalizing ticks with
  | zero =>
    induction ticks with
    | zero => exact start
    | succ ticks ih =>
      have hticks : frameOf hz 0 ≤ ticks + 1 := by
        rw [frameOf_zero hhz]
        exact Nat.zero_le _
      rw [timetable_add_tick hticks]
      exact addTick _ _ _ (ih hticks)
  | succ n ihn =>
    -- The ticks before the step are those of the frames before its own.
    obtain ⟨first, hfirst⟩ := Nat.exists_eq_add_of_le' (frameOf_pos (n := n + 1) hhz (by omega))
    obtain ⟨more, rfl⟩ : ∃ more, ticks = first + more := ⟨ticks - first, by omega⟩
    induction more with
    | zero =>
      -- No tick follows the step yet: it is the latest beat, and what precedes it is due by
      -- monotony.
      have hearlier : frameOf hz n ≤ first + 1 := hfirst ▸ frameOf_mono hhz (Nat.le_succ n)
      show P (timetable hz (n + 1) first) (n + 1) first
      rw [timetable_add_step hfirst]
      exact addStep _ _ _ hfirst (ihn hearlier)
    | succ more ih =>
      have hticks : frameOf hz (n + 1) ≤ first + more + 1 := by omega
      rw [← Nat.add_assoc, timetable_add_tick hticks]
      exact addTick _ _ _ (ih hticks)

/-- The beats of the timetable are as many as they should be, and on schedule. -/
theorem timetable_spec (hhz : 1 ≤ hz) (h : frameOf hz n ≤ ticks + 1) :
    OnSchedule hz (timetable hz n ticks) ∧ (timetable hz n ticks).count step = n ∧
      (timetable hz n ticks).count tick = ticks := by
  refine timetable_induction (P := fun beats n ticks =>
    OnSchedule hz beats ∧ beats.count step = n ∧ beats.count tick = ticks) hhz
    ⟨.start, rfl, rfl⟩ ?_ ?_ h
  · rintro beats n ticks ⟨hschedule, rfl, rfl⟩
    exact ⟨.tick hschedule, List.count_append, List.count_append⟩
  · rintro beats n ticks hearned ⟨hschedule, rfl, rfl⟩
    exact ⟨.step hschedule hearned.symm, List.count_append, List.count_append⟩

/-- A timetable begins with the timetables of fewer frames: those of as many steps as they earn. -/
theorem timetable_prefix (hhz : 1 ≤ hz) {k frames : Nat} (hk : k ≤ n)
    (hframes : frames ≤ ticks) (hdue : frameOf hz k ≤ frames + 1)
    (hnext : frames < frameOf hz (k + 1)) :
    timetable hz k frames <+: timetable hz n ticks := by
  -- Ticks can be left off at the end, as long as the next step is not due.
  have hticks (more : Nat) : timetable hz k frames <+: timetable hz k (frames + more) := by
    induction more with
    | zero => exact List.prefix_refl _
    | succ more ih =>
      rw [← Nat.add_assoc, timetable_add_tick (by omega)]
      exact ih.trans (List.prefix_append _ _)
  -- Then steps are left off, one at a time, from the last one on.
  induction hk generalizing ticks with
  | refl =>
    obtain ⟨more, rfl⟩ := Nat.exists_eq_add_of_le hframes
    exact hticks more
  | @step n hk ih =>
    -- The timetable of one step more begins with that of the frames before the step.
    have hmono : frameOf hz (k + 1) ≤ frameOf hz (n + 1) := frameOf_mono hhz (Nat.succ_le_succ hk)
    exact (ih (by omega)).trans (List.prefix_append _ _)

/-- The timetable of whole frames ends with the tick of the last one. -/
theorem timetable_ends {frames : Nat} (hdue : frameOf hz n ≤ frames) (hpos : 1 ≤ frames) :
    (timetable hz n frames).getLast? = some tick := by
  obtain ⟨earlier, rfl⟩ := Nat.exists_eq_add_of_le' hpos
  rw [timetable_add_tick hdue, List.getLast?_concat]

end Beat

/-! ## Machines on schedule -/

namespace Machine

variable {ρ : Type} [ByteSource ρ]

/-- What a beat does; before each step the machine is told of the held keys. -/
def beat (keys : KeyStates) (m : Machine ρ) : Beat → Machine ρ
  | .step => (m.hold keys).step.machine
  | .tick => m.tick

/-- The machine after some beats. -/
def play (keys : KeyStates) (m : Machine ρ) (beats : List Beat) : Machine ρ :=
  beats.foldl (beat keys) m

/-- Two series of beats follow one another. -/
theorem play_append (keys : KeyStates) (m : Machine ρ) (first last : List Beat) :
    m.play keys (first ++ last) = (m.play keys first).play keys last :=
  List.foldl_append

/-- The last beat comes last. -/
theorem play_append_singleton (keys : KeyStates) (m : Machine ρ) (beats : List Beat) (b : Beat) :
    m.play keys (beats ++ [b]) = (m.play keys beats).beat keys b :=
  play_append keys m beats [b]

/-- A step that completes is counted. -/
theorem step_cycles (m : Machine ρ) :
    m.step.machine.cycles = m.cycles + if m.step.obstacle = none then 1 else 0 := by
  cases ho : m.step.obstacle with
  | some obstacle =>
    obtain ⟨_, hm⟩ := exists_machine_eq_of_obstacle ho
    rw [hm]
    rfl
  | none =>
    obtain ⟨e, he, hm⟩ := exists_effect_of_completed ho
    rw [hm, if_pos rfl, complete, (execute_bookkeeping he).2.1]

end Machine

end Chip8
