import Chip8.Proofs.Drivers

/-!
# The wording of timed runs

A timed run gives its speed and the number of its steps, frame by frame. All that the run does apart
from that is the same however this is worded, as long as it is worded at all: in any words a run is
what it is in plain ones, or it is broken off where its speed and a number of its steps are refused.

## Key results

- `Notice.Writer.Rejects`, `Notice.Writer.not_rejects_limited`: what is not worded
- `Watch.runFrames_eq_plain_or`: a timed run in other words
-/

namespace Chip8

namespace Debugger

-- Powers are those of natural numbers here, and not those of a monoid.
attribute [local instance (1100)] instPowNat

variable {ρ α : Type}

namespace Notice.Writer

/-- A notice that gives this speed and this number of steps, or one of the two, is not worded. -/
def Rejects (write : Writer) (hz : Int) (steps : Nat) : Prop :=
  ∃ notice : Notice, (∀ n ∈ notice.numbers, n = steps ∨ n = hz) ∧
    ∃ error, write notice = .error error

/-- Numbers that keep to the limit on the digits are worded. -/
theorem not_rejects_limited {hz : Int} {steps : Nat}
    (hhz : hz.natAbs < 10 ^ Text.decimalLimit) (hsteps : steps < 10 ^ Text.decimalLimit) :
    ¬limited.Rejects hz steps := by
  rintro ⟨notice, hnumbers, error, hrefused⟩
  have hall : (notice.numbers.all fun n => n.natAbs < 10 ^ Text.decimalLimit) = true := by
    refine List.all_eq_true.2 fun n hn => decide_eq_true ?_
    obtain rfl | rfl := hnumbers n hn
    · exact hsteps
    · exact hhz
  rw [limited, if_pos hall] at hrefused
  cases hrefused

end Notice.Writer

namespace Watch

variable {w : Watch ρ α}

/-! ## Announcements -/

/-- An announcement is the same in any words that there are for it; without words it ends the
    run. -/
private theorem announce_eq_plain_or (write : Notice.Writer) (viewer : Option (Viewer ρ α))
    (hz : Int) (notice : Notice) (hnumbers : ∀ n ∈ notice.numbers, n = w.steps ∨ n = hz) :
    w.announce write viewer hz notice = w.announce .plain viewer hz notice ∨
      (w.announce write viewer hz notice).1 = true ∧ write.Rejects hz w.steps := by
  unfold announce
  cases hnotice : write notice with
  | error error => exact .inr ⟨rfl, notice, hnumbers, error, hnotice⟩
  | ok text =>
    obtain ⟨shown, hshown⟩ := exists_show?_eq viewer { w with session := w.session.tell notice }
    simp only [Notice.Writer.plain]
    cases hs : ({ w with session := w.session.tell notice } : Watch ρ α).show? viewer with
    | mk interrupted after =>
      rw [hs] at hshown
      obtain rfl : after = _ := hshown
      cases interrupted with
      | false => exact .inl rfl
      | true =>
        -- The words for an interruption have the same two numbers as the announcement.
        cases hpaused : write (.paused w.steps hz) with
        | error error =>
          refine .inr ⟨rfl, .paused w.steps hz, fun n hn => ?_, error, hpaused⟩
          simpa only [Notice.numbers, List.mem_cons, List.not_mem_nil, or_false] using hn
        | ok text =>
          left
          simp only [tell, hpaused]
          rfl

/-- Announcements neither count steps nor use up frames. -/
private theorem announce_counts (write : Notice.Writer) (viewer : Option (Viewer ρ α)) (hz : Int)
    (notice : Notice) (w : Watch ρ α) :
    (w.announce write viewer hz notice).2.steps = w.steps ∧
      (w.announce write viewer hz notice).2.unfinished = w.unfinished := by
  obtain ⟨told, failure, shown, heq⟩ := exists_announce_eq write viewer hz notice w
  rw [heq]
  exact ⟨rfl, rfl⟩

/-- The end of a frame, behind its tick: what is told there, and whether the run goes on. -/
def close (write : Notice.Writer) (viewer : Option (Viewer ρ α)) (hz : Int) (limit : Option Int)
    (left : Int) (ticked : Watch ρ α) : Option Int × Watch ρ α :=
  match ticked.announce write viewer hz (.running hz ticked.steps ticked.session.machine.pc) with
  | (true, after) => (none, after)
  | (false, after) =>
    if limitMet limit after.steps then
      (none, (after.announce write viewer hz (.timedLimit after.steps)).2)
    else (some left, after)

/-- The end of a frame neither counts steps nor uses up frames. -/
private theorem close_counts (write : Notice.Writer) (viewer : Option (Viewer ρ α)) (hz : Int)
    (limit : Option Int) (left : Int) (ticked : Watch ρ α) :
    (ticked.close write viewer hz limit left).2.steps = ticked.steps ∧
      (ticked.close write viewer hz limit left).2.unfinished = ticked.unfinished := by
  have htold := ticked.announce_counts write viewer hz
    (.running hz ticked.steps ticked.session.machine.pc)
  unfold close
  split
  · next hs =>
    rw [hs] at htold
    exact htold
  · next told hs =>
    rw [hs] at htold
    split
    · obtain ⟨hsteps, hunfinished⟩ :=
        told.announce_counts write viewer hz (.timedLimit told.steps)
      exact ⟨hsteps.trans htold.1, hunfinished.trans htold.2⟩
    · exact htold

/-- The end of a frame is the same in any words that there are for it; without words it is the end
    of the run. -/
private theorem close_eq_plain_or (write : Notice.Writer) (viewer : Option (Viewer ρ α)) (hz : Int)
    (limit : Option Int) (left : Int) (ticked : Watch ρ α) :
    ticked.close write viewer hz limit left = ticked.close .plain viewer hz limit left ∨
      (ticked.close write viewer hz limit left).1 = none ∧ write.Rejects hz ticked.steps := by
  unfold close
  obtain hsame | ⟨hends, hrejects⟩ := ticked.announce_eq_plain_or write viewer hz
    (.running hz ticked.steps ticked.session.machine.pc) (by simp [Notice.numbers])
  · obtain ⟨hsteps, -⟩ := ticked.announce_counts .plain viewer hz
      (.running hz ticked.steps ticked.session.machine.pc)
    rw [hsame]
    cases hs : ticked.announce .plain viewer hz
      (.running hz ticked.steps ticked.session.machine.pc) with
    | mk ended told =>
      rw [hs] at hsteps
      cases ended with
      | true => exact .inl rfl
      | false =>
        dsimp only at hsteps ⊢
        -- A run that has come to its limit has last words, and these give the steps once more.
        split
        · obtain hsame | ⟨-, hrejects⟩ := told.announce_eq_plain_or write viewer hz
            (.timedLimit told.steps) (by simp [Notice.numbers])
          · exact .inl (by rw [hsame])
          · exact .inr ⟨rfl, hsteps ▸ hrejects⟩
        · exact .inl rfl
  · cases hs : ticked.announce write viewer hz
      (.running hz ticked.steps ticked.session.machine.pc) with
    | mk ended told =>
      rw [hs] at hends
      obtain rfl : ended = true := hends
      exact .inr ⟨rfl, hrejects⟩

/-! ## Frames -/

variable [ByteSource ρ]

/-- The steps of a frame are added to those before it, and use up no frames. -/
private theorem burst_counts (limit : Option Int) (left : Nat) (w : Watch ρ α) :
    w.steps ≤ (burst limit left w).2.steps ∧
      (burst limit left w).2.unfinished = w.unfinished := by
  -- Induction on the steps left; the count goes up with each that completes.
  induction left generalizing w with
  | zero => exact ⟨Nat.le_refl _, rfl⟩
  | succ left ih =>
    unfold burst
    split
    · exact ⟨Nat.le_refl _, rfl⟩
    · split
      · exact ⟨Nat.le_refl _, rfl⟩
      · dsimp only
        split
        · exact ⟨Nat.le_succ _, rfl⟩
        · obtain ⟨hsteps, hunfinished⟩ := ih _
          exact ⟨Nat.le_trans (Nat.le_succ _) hsteps, hunfinished⟩

/-- Behind a frame the run has counted the steps of the frame, and it has used up none of the frames
    that it was given. -/
private theorem frame_counts (write : Notice.Writer) (viewer : Option (Viewer ρ α)) (hz : Int)
    (limit : Option Int) (budget : Int) (w : Watch ρ α) :
    let taken := (burst limit ((budget + hz) / 60).toNat { w with session := w.session.remember }).2
    (w.frame write viewer hz limit budget).2.steps = taken.steps ∧
      (w.frame write viewer hz limit budget).2.unfinished = taken.unfinished := by
  unfold frame
  dsimp only
  cases burst limit ((budget + hz) / 60).toNat { w with session := w.session.remember } with
  | mk stop after =>
    cases stop with
    | some stop =>
      cases stop with
      | breakpoint => exact announce_counts ..
      | obstacle obstacle =>
        cases obstacle with
        | fault fault => exact announce_counts ..
        | source error => exact ⟨rfl, rfl⟩
    | none =>
      exact close_counts write viewer hz limit (budget + hz - 60 * ((after.steps : Int) - w.steps))
        { after with session := { after.session with machine := after.session.machine.tick } }

/-- No frame uses up the frames that the run was given. -/
theorem frame_unfinished (write : Notice.Writer) (viewer : Option (Viewer ρ α)) (hz : Int)
    (limit : Option Int) (budget : Int) (w : Watch ρ α) :
    (w.frame write viewer hz limit budget).2.unfinished = w.unfinished :=
  (frame_counts write viewer hz limit budget w).2.trans (burst_counts ..).2

/-- A frame adds to the steps. -/
private theorem steps_le_frame (write : Notice.Writer) (viewer : Option (Viewer ρ α)) (hz : Int)
    (limit : Option Int) (budget : Int) (w : Watch ρ α) :
    w.steps ≤ (w.frame write viewer hz limit budget).2.steps := by
  rw [(frame_counts write viewer hz limit budget w).1]
  exact (burst_counts limit _ { w with session := w.session.remember }).1

/-- A frame is the same in any words that there are for it; without words it is the last one. -/
private theorem frame_eq_plain_or (write : Notice.Writer) (viewer : Option (Viewer ρ α)) (hz : Int)
    (limit : Option Int) (budget : Int) (w : Watch ρ α) :
    w.frame write viewer hz limit budget = w.frame .plain viewer hz limit budget ∨
      (w.frame write viewer hz limit budget).1 = none ∧
        write.Rejects hz (w.frame .plain viewer hz limit budget).2.steps := by
  rw [(frame_counts .plain viewer hz limit budget w).1]
  unfold frame
  dsimp only
  cases burst limit ((budget + hz) / 60).toNat { w with session := w.session.remember } with
  | mk stop after =>
    cases stop with
    | some stop =>
      -- The last words of a run that is stopped, unless a byte was refused.
      cases stop with
      | breakpoint =>
        obtain hsame | ⟨-, hrejects⟩ := after.announce_eq_plain_or write viewer hz
          (.timedBreakpoint after.session.machine.pc after.steps hz) (by simp [Notice.numbers])
        · exact .inl (congrArg (fun told => (none, told.2)) hsame)
        · exact .inr ⟨rfl, hrejects⟩
      | obstacle obstacle =>
        cases obstacle with
        | fault fault =>
          obtain hsame | ⟨-, hrejects⟩ := after.announce_eq_plain_or write viewer hz
            (.timedFatal after.steps fault) (by simp [Notice.numbers])
          · exact .inl (congrArg (fun told => (none, told.2)) hsame)
          · exact .inr ⟨rfl, hrejects⟩
        | source error => exact .inl rfl
    | none =>
      exact close_eq_plain_or write viewer hz limit
        (budget + hz - 60 * ((after.steps : Int) - w.steps))
        { after with session := { after.session with machine := after.session.machine.tick } }

/-! ## Runs -/

/-- The steps of a run only grow. -/
private theorem steps_le_runFrames (write : Notice.Writer) (viewer : Option (Viewer ρ α)) (hz : Int)
    (limit : Option Int) (frames : Nat) (budget : Int) (w : Watch ρ α) :
    w.steps ≤ (runFrames write viewer hz limit frames budget w).steps := by
  induction frames generalizing budget w with
  | zero => exact Nat.le_refl _
  | succ frames ih =>
    have hframe := steps_le_frame write viewer hz limit budget w
    unfold runFrames
    cases hs : w.frame write viewer hz limit budget with
    | mk left after =>
      rw [hs] at hframe
      cases left with
      | none => exact hframe
      | some left => exact Nat.le_trans hframe (ih left after)

/-- In any words a run is what it is in plain ones, or it is broken off before it has had all its
    frames: where it has to give its speed and a number of steps, no more than the plain run takes,
    and these are not worded. -/
theorem runFrames_eq_plain_or (write : Notice.Writer) (viewer : Option (Viewer ρ α)) (hz : Int)
    (limit : Option Int) (frames : Nat) (budget : Int) (w : Watch ρ α) :
    runFrames write viewer hz limit frames budget w =
        runFrames .plain viewer hz limit frames budget w ∨
      (runFrames write viewer hz limit frames budget w).unfinished = w.unfinished ∧
        ∃ steps ≤ (runFrames .plain viewer hz limit frames budget w).steps,
          write.Rejects hz steps := by
  -- Induction on the frames: the two runs go through the same ones until one of them lacks words.
  induction frames generalizing budget w with
  | zero => exact .inl rfl
  | succ frames ih =>
    have hunfinished := frame_unfinished write viewer hz limit budget w
    have hplain := frame_unfinished .plain viewer hz limit budget w
    obtain hsame | ⟨hends, hrejects⟩ := frame_eq_plain_or write viewer hz limit budget w
    · unfold runFrames
      rw [hsame]
      cases hs : w.frame .plain viewer hz limit budget with
      | mk left after =>
        rw [hs] at hplain
        cases left with
        | none => exact .inl rfl
        | some left =>
          dsimp only at hplain ⊢
          rw [← hplain]
          exact ih left after
    · right
      refine ⟨?_, _, ?_, hrejects⟩
      · unfold runFrames
        cases hs : w.frame write viewer hz limit budget with
        | mk left after =>
          rw [hs] at hends hunfinished
          obtain rfl : left = none := hends
          exact hunfinished
      · unfold runFrames
        cases w.frame .plain viewer hz limit budget with
        | mk left after =>
          cases left with
          | none => exact Nat.le_refl _
          | some left => exact steps_le_runFrames ..

end Watch

end Debugger

end Chip8
