import Chip8.Debugger.TimedRun
import Chip8.Proofs.Calls

/-!
# Three drivers

Frames can be run in a loop, earned by a timed run, or counted by single steps of a session. The
three place the tick by bookkeeping of their own. Each is compared with the iterated step of the
machine: a frame whose steps all complete brings one tick, and a frame that meets an obstacle ends
there, whoever drives.

## Key results

- `Session.Paced.after_frames`: single steps of a session, counted in frames
- `Watch.Tracks.burst_of_completes`, `Watch.Tracks.burst_of_first_obstacle`: a frame of a timed run
- `Watch.Tracks.runFrames_machine`: a timed run that earns whole frames
- `drivers_agree`: the three drivers leave the same machine
-/

namespace Chip8

variable {ρ α : Type}

/-- Keys that are held already change nothing. -/
theorem Machine.hold_eq_self {m : Machine ρ} {keys : KeyStates} (h : m.keypad.states = keys) :
    m.hold keys = m := by
  subst h
  rfl

/-- A tick moves only the timers. -/
@[simp] theorem Machine.tick_keypad (m : Machine ρ) : m.tick.keypad = m.keypad := by
  unfold Machine.tick
  split
  · rfl
  · rfl

namespace Debugger

/-! ## Sessions that have told their machine the held keys -/

/-- The session before a step, when it has told the machine of its keys. -/
def Session.holdKeys (s : Session ρ) : Session ρ :=
  { s with machine := s.machine.hold s.held }

/-- The session drives the machine `m`, which knows the held keys. -/
structure Session.Drives (s : Session ρ) (m : Machine ρ) : Prop where
  machine : s.machine = m
  keys : m.keypad.states = s.held

/-- A session that has told its machine the keys drives it. -/
private theorem Session.drives_holdKeys (s : Session ρ) :
    s.holdKeys.Drives (s.machine.hold s.held) :=
  ⟨rfl, rfl⟩

/-! ## Showings -/

namespace Watch

variable {viewer : Option (Viewer ρ α)} {w : Watch ρ α} {m : Machine ρ} {steps : Nat}

/-- The viewer does not interrupt the next `showings` showings. -/
def Uninterrupted (viewer : Option (Viewer ρ α)) (w : Watch ρ α) (showings : Nat) : Prop :=
  ∀ v ∈ viewer, ∀ patience ∈ v.patience, w.shown.size + showings < patience

/-- The timed run drives `m`, has counted `steps` steps, and has no breakpoints. -/
structure Tracks (w : Watch ρ α) (m : Machine ρ) (steps : Nat) : Prop where
  drives : w.session.Drives m
  breakpoints : w.session.breakpoints = []
  steps : w.steps = steps

/-- A showing changes nothing but what was shown. -/
theorem exists_show?_eq (viewer : Option (Viewer ρ α)) (w : Watch ρ α) :
    ∃ shown, (w.show? viewer).2 = { w with shown } := by
  unfold show?
  cases viewer with
  | none => exact ⟨w.shown, rfl⟩
  | some v =>
    refine ⟨w.shown.push (v.picture w.session), ?_⟩
    cases hp : v.patience with
    | none => simp only [hp]
    | some patience => simp only [hp]

/-- A showing that does not interrupt uses up one of those that do not. -/
theorem Uninterrupted.show? {showings : Nat} (h : Uninterrupted viewer w (showings + 1)) :
    (w.show? viewer).1 = false ∧ Uninterrupted viewer (w.show? viewer).2 showings := by
  unfold Watch.show?
  cases viewer with
  | none => exact ⟨rfl, nofun⟩
  | some v =>
    cases hp : v.patience with
    | none =>
      -- The viewer is never out of patience.
      refine ⟨by simp only [hp], fun u hu patience hpatience => ?_⟩
      cases hu
      exact absurd (hp.symm.trans hpatience) nofun
    | some patience =>
      -- The showing adds one picture, and the patience was longer than all pictures to come.
      have hlt := h v rfl patience hp
      have hsize : (w.shown.push (v.picture w.session)).size = w.shown.size + 1 :=
        Array.size_push _
      refine ⟨?_, fun u hu other hother => ?_⟩
      · simp only [hp, hsize, decide_eq_false_iff_not]
        omega
      · cases hu
        cases hp.symm.trans hother
        simp only [hp, hsize]
        omega

/-- Telling the user something changes nothing but the notice, or breaks the run off. -/
private theorem exists_tell_eq (write : Notice.Writer) (notice : Notice) (w : Watch ρ α) :
    ∃ told failure, w.tell write notice =
      { w with session := { w.session with notice := told }, failure } := by
  unfold tell
  cases write notice with
  | error error => exact ⟨w.session.notice, some (.number error), rfl⟩
  | ok text => exact ⟨notice, w.failure, rfl⟩

/-- An announcement changes nothing but the notice and what was shown, or breaks the run off. -/
theorem exists_announce_eq (write : Notice.Writer) (viewer : Option (Viewer ρ α)) (hz : Int)
    (notice : Notice) (w : Watch ρ α) :
    ∃ told failure shown, (w.announce write viewer hz notice).2 =
      { w with session := { w.session with notice := told }, failure, shown } := by
  unfold announce
  cases write notice with
  | error error => exact ⟨w.session.notice, some (.number error), w.shown, rfl⟩
  | ok text =>
    obtain ⟨shown, hshown⟩ := exists_show?_eq viewer { w with session := w.session.tell notice }
    dsimp only
    -- What was told is in the session before the picture is taken of it.
    cases hs : ({ w with session := w.session.tell notice } : Watch ρ α).show? viewer with
    | mk interrupted after =>
      rw [hs] at hshown
      obtain rfl : after = _ := hshown
      cases interrupted with
      | true =>
        obtain ⟨told, failure, htold⟩ := exists_tell_eq write (.paused w.steps hz)
          { w with session := w.session.tell notice, shown }
        exact ⟨told, failure, shown, htold⟩
      | false => exact ⟨notice, w.failure, shown, rfl⟩

/-- Announcements leave the machine alone. -/
private theorem announce_machine (write : Notice.Writer) (viewer : Option (Viewer ρ α)) (hz : Int)
    (notice : Notice) (w : Watch ρ α) :
    (w.announce write viewer hz notice).2.session.machine = w.session.machine := by
  obtain ⟨told, failure, shown, h⟩ := exists_announce_eq write viewer hz notice w
  rw [h]

/-- What can be worded is announced, and the run goes on if the viewer does not interrupt. -/
theorem Uninterrupted.announce {showings : Nat} (h : Uninterrupted viewer w (showings + 1))
    (hz : Int) (notice : Notice) :
    ∃ next shown, w.announce .plain viewer hz notice = (false, next) ∧
      next = { w with session := w.session.tell notice, shown } ∧
      Uninterrupted viewer next showings := by
  have htold : Uninterrupted viewer { w with session := w.session.tell notice } (showings + 1) := h
  obtain ⟨hgoes, hrest⟩ := htold.show?
  obtain ⟨shown, hshown⟩ := exists_show?_eq viewer { w with session := w.session.tell notice }
  simp only [Watch.announce, Notice.Writer.plain]
  cases hs : ({ w with session := w.session.tell notice } : Watch ρ α).show? viewer with
  | mk interrupted next =>
    rw [hs] at hgoes hrest hshown
    obtain rfl : interrupted = false := hgoes
    exact ⟨next, shown, rfl, hshown, hrest⟩

/-- A timed run is given a frame for each that its limit has room for, and one more. -/
private theorem lt_frameBound {size frames : Nat} (hsize : 1 ≤ size)
    (hu : ∀ v ∈ viewer, ∀ patience ∈ v.patience, frames < patience) (horizon : Nat) :
    frames < frameBound viewer (60 * size) (some (frames * size : Nat)) horizon := by
  -- Either the patience bounds the frames, or the limit does.
  cases hp : viewer.bind (·.patience) with
  | some patience =>
    obtain ⟨v, hv, hpatience⟩ := Option.bind_eq_some_iff.1 hp
    have hlt := hu v hv patience hpatience
    simp only [frameBound, hp]
    omega
  | none =>
    have hpos : (0 : Int) < 60 * size := by omega
    have hdiv : (60 * ((frames * size : Nat) : Int)) / (60 * size) = frames := by
      rw [Int.natCast_mul, Int.mul_left_comm, Int.mul_ediv_cancel _ (by omega)]
    simp only [frameBound, hp, if_pos hpos, hdiv]
    omega

/-- Remembering the registers does not matter to what is driven. -/
theorem Tracks.remember (h : w.Tracks m steps) :
    { w with session := w.session.remember }.Tracks m steps :=
  ⟨⟨h.drives.machine, h.drives.keys⟩, h.breakpoints, h.steps⟩

/-- A run that has counted fewer steps than its limit has not met it. -/
theorem Tracks.limitMet (h : w.Tracks m steps) {limit : Int} (hlt : (steps : Int) < limit) :
    limitMet (some limit) w.steps = false := by
  simp only [Debugger.limitMet, h.steps, decide_eq_false_iff_not]
  omega

end Watch

variable [ByteSource ρ] {s : Session ρ} {m : Machine ρ}

/-- Telling the machine the keys twice is telling it once. -/
private theorem Session.stepWithKeys_holdKeys (s : Session ρ) :
    s.holdKeys.stepWithKeys = s.stepWithKeys := rfl

namespace Session.Drives

/-- A step with the keys held is the step of the machine that knows them. -/
theorem stepWithKeys (h : s.Drives m) :
    s.stepWithKeys = ({ s with machine := m.step.machine }, m.step.obstacle, m.step.note) := by
  obtain ⟨rfl, hk⟩ := h
  simp only [Session.stepWithKeys, Machine.hold_eq_self hk]
  rfl

/-- A session goes on driving the machine that it has stepped. -/
theorem step (h : s.Drives m) : { s with machine := m.step.machine }.Drives m.step.machine :=
  ⟨rfl, m.step_states.trans h.keys⟩

end Session.Drives

/-! ## Single steps -/

/-- The session after some single steps. -/
def Session.after (s : Session ρ) (steps : Nat) : Session ρ :=
  (fun s => (s.step : Reply ρ Unit).session)^[steps] s

/-- The session drives `m` in frames of `size` steps, `done` of which belong to the current one. -/
structure Session.Paced (s : Session ρ) (size done : Nat) (m : Machine ρ) : Prop where
  drives : s.Drives m
  stepsPerFrame : s.stepsPerFrame = size
  frameSteps : s.frameSteps = done

/-- No steps leave the session as it is. -/
theorem Session.after_zero (s : Session ρ) : s.after 0 = s := rfl

/-- The first step comes first. -/
private theorem Session.after_succ (s : Session ρ) (n : Nat) :
    s.after (n + 1) = (s.step : Reply ρ Unit).session.after n := rfl

/-- Series of single steps follow one another. -/
theorem Session.after_add (s : Session ρ) (k n : Nat) : s.after (k + n) = (s.after k).after n := by
  rw [Session.after, Nat.add_comm, Function.iterate_add_apply]
  rfl

/-- The first of some steps tells the machine of the keys. -/
private theorem Session.after_holdKeys (hf : s.machine.fault = none) (n : Nat) :
    s.holdKeys.after (n + 1) = s.after (n + 1) := by
  -- A step tells the machine of the keys anyway.
  have hstep : (s.holdKeys.step : Reply ρ Unit) = s.step := by
    have hf' : s.holdKeys.machine.fault = none := hf
    have hkeys : s.holdKeys.remember.stepWithKeys = s.remember.stepWithKeys :=
      s.remember.stepWithKeys_holdKeys
    simp only [Session.step, Session.advance, hf, hf', hkeys]
  rw [after_succ, hstep, ← after_succ]

namespace Session.Paced

variable {size done : Nat}

/-- A step that meets an obstacle is not counted. -/
private theorem step_of_obstacle {obstacle : Obstacle} (h : s.Paced size done m)
    (ho : m.step.obstacle = some obstacle) :
    (s.step : Reply ρ Unit).session.Paced size done m.step.machine := by
  -- A machine that halted before is not stepped; one that halts now is stepped and not counted.
  cases hf : m.fault with
  | some fault =>
    have hs : (s.step : Reply ρ Unit).session = s.tell (.alreadyHalted fault) := by
      simp only [Session.step, h.drives.machine, hf]
    rw [hs, Machine.step_of_halted hf]
    exact ⟨⟨h.drives.machine, h.drives.keys⟩, h.stepsPerFrame, h.frameSteps⟩
  | none =>
    have hd : s.remember.Drives m := ⟨h.drives.machine, h.drives.keys⟩
    have hkeys : m.step.machine.keypad.states = s.held := h.drives.step.keys
    simp only [Session.step, h.drives.machine, hf, Session.advance, hd.stepWithKeys, ho]
    cases obstacle with
    | fault fault => exact ⟨⟨rfl, hkeys⟩, h.stepsPerFrame, h.frameSteps⟩
    | source error => exact ⟨⟨rfl, hkeys⟩, h.stepsPerFrame, h.frameSteps⟩

/-- A completed step is counted. -/
private theorem step_of_completed (h : s.Paced size done m) (ho : m.step.obstacle = none) :
    ∃ notice previous, (s.step : Reply ρ Unit).session =
      { { s with machine := m.step.machine, previous }.countStep with notice } := by
  -- A halted machine would have met its fault.
  have hf : m.fault = none := by
    cases hf : m.fault with
    | none => rfl
    | some fault =>
      rw [Machine.step_of_halted hf] at ho
      exact nomatch ho
  have hd : s.remember.Drives m := ⟨h.drives.machine, h.drives.keys⟩
  simp only [Session.step, h.drives.machine, hf, Session.advance, hd.stepWithKeys, ho]
  exact ⟨_, _, rfl⟩

/-- A completed step within a frame. -/
private theorem step_within (h : s.Paced size done m) (ho : m.step.obstacle = none)
    (hlt : done + 1 < size) :
    (s.step : Reply ρ Unit).session.Paced size (done + 1) m.step.machine := by
  obtain ⟨notice, previous, hs⟩ := h.step_of_completed ho
  have hnot : ¬s.stepsPerFrame ≤ s.frameSteps + 1 := by
    rw [h.stepsPerFrame, h.frameSteps]
    omega
  rw [hs, Session.countStep, if_neg hnot]
  refine ⟨⟨rfl, h.drives.step.keys⟩, h.stepsPerFrame, ?_⟩
  show s.frameSteps + 1 = _
  rw [h.frameSteps]
  rfl

/-- The last step of a frame brings a tick. -/
private theorem step_last (h : s.Paced size done m) (ho : m.step.obstacle = none)
    (hsize : done + 1 = size) :
    (s.step : Reply ρ Unit).session.Paced size 0 m.step.machine.tick := by
  obtain ⟨notice, previous, hs⟩ := h.step_of_completed ho
  have hle : s.stepsPerFrame ≤ s.frameSteps + 1 := by
    rw [h.stepsPerFrame, h.frameSteps]
    omega
  rw [hs, Session.countStep, if_pos hle]
  refine ⟨⟨rfl, ?_⟩, h.stepsPerFrame, rfl⟩
  rw [Machine.tick_keypad]
  exact h.drives.step.keys

/-- Completed steps that do not fill the frame bring no tick. -/
private theorem after_within {n : Nat} (h : s.Paced size done m) (hc : m.Completes n)
    (hlt : done + n < size) : (s.after n).Paced size (done + n) (m.after n) := by
  -- Induction on the steps; the count within the frame is generalized, as each step adds to it.
  induction n generalizing s m done with
  | zero => exact h
  | succ n ih =>
    obtain ⟨ho, hrest⟩ := Machine.completes_succ.1 hc
    have hnext := ih (h.step_within ho (by omega)) hrest (by omega)
    rw [Nat.add_assoc, Nat.add_comm 1 n] at hnext
    exact hnext

/-- A frame whose steps all complete ends with a tick. -/
private theorem after_frame (h : s.Paced size 0 m) (hc : m.Completes size) (hsize : 1 ≤ size) :
    (s.after size).Paced size 0 (m.after size).tick := by
  obtain ⟨n, rfl⟩ : ∃ n, size = n + 1 := ⟨size - 1, by omega⟩
  have hbefore := h.after_within (n := n) (fun k hk => hc k (by omega)) (by omega)
  rw [Session.after_add, Machine.after_succ']
  exact hbefore.step_last (hc n (by omega)) (by omega)

/-- From an obstacle on, single steps leave the machine as it is. -/
private theorem after_of_obstacle {obstacle : Obstacle} (h : s.Paced size done m)
    (ho : m.step.obstacle = some obstacle) (n : Nat) :
    (s.after n).machine = m.after n := by
  -- Induction on the steps: each of them meets the obstacle again.
  induction n generalizing s m with
  | zero => exact h.drives.machine
  | succ n ih => exact ih (h.step_of_obstacle ho) (Machine.step_of_obstacle ho).1

/-- After a frame that met an obstacle, single steps leave the machine where the frame broke off. -/
private theorem after_of_not_completes {n : Nat} (h : s.Paced size 0 m) (hc : ¬m.Completes size)
    (hn : size ≤ n) : (s.after n).machine = m.after size := by
  obtain ⟨k, hk, hbefore, obstacle, ho⟩ := Machine.exists_first_obstacle hc
  have hpaced := h.after_within hbefore (by omega)
  -- The steps up to the obstacle are counted; from it on nothing moves.
  have hafter := hpaced.after_of_obstacle ho (n - k)
  rw [← Session.after_add, Nat.add_sub_cancel' (by omega)] at hafter
  obtain ⟨rest, hrest⟩ : ∃ rest, n - k = rest + 1 := ⟨n - k - 1, by omega⟩
  rw [hafter, hrest, Machine.after_succ_of_obstacle ho, Machine.after_of_obstacle ho hk]

/-- Single steps, counted in frames, leave the machine that a loop over the frames leaves. -/
theorem after_frames {r : Run ρ} (hr : r.obstacle = none) (h : s.Paced size 0 r.machine)
    (hsize : 1 ≤ size) (frames : Nat) :
    (s.after (frames * size)).machine = (Run.frames size frames r).machine := by
  -- Induction on the frames; `frames_cases` cuts off the first one on both sides.
  induction frames generalizing s r with
  | zero =>
    rw [Nat.zero_mul]
    exact h.drives.machine
  | succ frames ih =>
    have hcount : (frames + 1) * size = size + frames * size := by
      rw [Nat.succ_mul, Nat.add_comm]
    rw [hcount]
    obtain ⟨hc, next, ho, hm, hframes⟩ | ⟨hc, hm⟩ := r.frames_cases size hr
    · rw [hframes, Session.after_add]
      refine ih ho ?_
      rw [hm]
      exact h.after_frame hc hsize
    · rw [hm]
      exact h.after_of_not_completes hc (by omega)

end Session.Paced

/-! ## Timed runs -/

namespace Watch

variable {viewer : Option (Viewer ρ α)} {w : Watch ρ α} {steps : Nat}

/-- What a frame earns is as many whole steps as it has. -/
private theorem earned_toNat (size : Nat) : ((0 + 60 * (size : Int)) / 60).toNat = size := by
  omega

namespace Tracks

/-- A completed step is counted, and the run drives the machine behind it. -/
theorem step (h : w.Tracks m steps) (notes : Array Note) :
    { w with
      session := { w.session with machine := m.step.machine }
      steps := w.steps + 1
      notes }.Tracks m.step.machine (steps + 1) :=
  ⟨h.drives.step, h.breakpoints, congrArg (· + 1) h.steps⟩

/-- One turn of the loop over the steps of a frame. -/
private theorem burst_succ (h : w.Tracks m steps) {limit : Int} (hlt : (steps : Int) < limit)
    (left : Nat) :
    (∀ obstacle, m.step.obstacle = some obstacle →
      ∃ after, burst (some limit) (left + 1) w = (some (.obstacle obstacle), after) ∧
        after.session.machine = m.step.machine) ∧
    (m.step.obstacle = none →
      ∃ next : Watch ρ α, next.Tracks m.step.machine (steps + 1) ∧ next.shown = w.shown ∧
        burst (some limit) (left + 1) w = burst (some limit) left next) := by
  constructor
  -- The first step is the obstacle: the burst stops before anything is counted.
  · intro obstacle ho
    simp only [burst, h.limitMet hlt, h.drives.stepWithKeys, ho, Bool.false_eq_true, if_false]
    exact ⟨_, rfl, rfl⟩
  -- The first step completes; the burst goes on with the next run.
  · intro ho
    refine ⟨_, h.step (addNote w.notes m.step.note), rfl, ?_⟩
    -- Without breakpoints no address is one.
    have hb : Session.atBreakpoint { w.session with machine := m.step.machine } = false := by
      simp only [Session.atBreakpoint, h.breakpoints, List.not_mem_nil, decide_false]
    simp only [burst, h.limitMet hlt, h.drives.stepWithKeys, ho, hb, Bool.false_eq_true, if_false]

/-- Steps that all complete use up what the frame has earned. -/
theorem burst_of_completes {limit : Int} {left : Nat} (h : w.Tracks m steps)
    (hc : m.Completes left) (hle : ((steps + left : Nat) : Int) ≤ limit) :
    ∃ after, burst (some limit) left w = (none, after) ∧
      after.Tracks (m.after left) (steps + left) ∧ after.shown = w.shown := by
  -- Induction on the steps of the frame, for every run that drives a machine.
  induction left generalizing w m steps with
  | zero => exact ⟨w, rfl, h, rfl⟩
  | succ left ih =>
    obtain ⟨ho, hrest⟩ := Machine.completes_succ.1 hc
    have hlt : (steps : Int) < limit := by omega
    have hle' : ((steps + 1 + left : Nat) : Int) ≤ limit := by omega
    obtain ⟨next, hnext, hshown, hburst⟩ := (h.burst_succ hlt left).2 ho
    obtain ⟨after, hafter, htracks, hsame⟩ := ih hnext hrest hle'
    refine ⟨after, hburst.trans hafter, ?_, hsame.trans hshown⟩
    rw [Nat.add_right_comm] at htracks
    exact htracks

/-- The first obstacle cuts the frame short. -/
theorem burst_of_first_obstacle {limit : Int} {left k : Nat} {obstacle : Obstacle}
    (h : w.Tracks m steps) (hc : m.Completes k)
    (ho : (m.after k).step.obstacle = some obstacle) (hk : k < left)
    (hle : ((steps + left : Nat) : Int) ≤ limit) :
    ∃ after, burst (some limit) left w = (some (.obstacle obstacle), after) ∧
      after.session.machine = (m.after k).step.machine := by
  obtain ⟨left, rfl⟩ : ∃ rest, left = rest + 1 := ⟨left - 1, by omega⟩
  have hlt : (steps : Int) < limit := by omega
  -- The induction is on the steps before the obstacle, and the limit moves along with the count.
  induction k generalizing w m steps left with
  | zero => exact (h.burst_succ hlt left).1 obstacle ho
  | succ k ih =>
    obtain ⟨hstep, hrest⟩ := Machine.completes_succ.1 hc
    obtain ⟨next, hnext, _, hburst⟩ := (h.burst_succ hlt left).2 hstep
    obtain ⟨left, rfl⟩ : ∃ rest, left = rest + 1 := ⟨left - 1, by omega⟩
    have hle' : ((steps + 1 + (left + 1) : Nat) : Int) ≤ limit := by omega
    obtain ⟨after, hafter, hmachine⟩ := ih hnext hrest ho left (by omega) hle' (by omega)
    exact ⟨after, hburst.trans hafter, hmachine⟩

/-- A frame that meets an obstacle leaves the machine where the frame broke off. -/
private theorem runFrames_of_not_completes {limit : Int} {size : Nat} (h : w.Tracks m steps)
    (hc : ¬m.Completes size) (hle : ((steps + size : Nat) : Int) ≤ limit) (frames : Nat) :
    (runFrames .plain viewer (60 * size) (some limit) (frames + 1) 0 w).session.machine =
      m.after size := by
  -- Seen from the machine, the obstacle is the first one within the frame.
  obtain ⟨k, hk, hbefore, obstacle, ho⟩ := Machine.exists_first_obstacle hc
  obtain ⟨after, hburst, hmachine⟩ := h.remember.burst_of_first_obstacle hbefore ho hk hle
  rw [Machine.after_of_obstacle ho hk, ← hmachine, runFrames]
  simp only [frame, earned_toNat, hburst]
  cases obstacle with
  | fault fault => exact announce_machine ..
  | source error => rfl

/-- A frame whose steps all complete spends what it has earned and ends with a tick. -/
private theorem runFrames_of_completes {limit : Int} {size showings : Nat} (h : w.Tracks m steps)
    (hc : m.Completes size) (hle : ((steps + size : Nat) : Int) ≤ limit)
    (hu : Uninterrupted viewer w (showings + 1)) (frames : Nat) :
    ∃ next, next.Tracks (m.after size).tick (steps + size) ∧
      Uninterrupted viewer next showings ∧
      runFrames .plain viewer (60 * size) (some limit) (frames + 1) 0 w =
        if Debugger.limitMet (some limit) next.steps then
          (next.announce .plain viewer (60 * size) (.timedLimit next.steps)).2
        else runFrames .plain viewer (60 * size) (some limit) frames 0 next := by
  obtain ⟨after, hburst, htracks, hshown⟩ := h.remember.burst_of_completes hc hle
  -- Nothing that was earned is left over for the next frame.
  have hleft : 0 + 60 * (size : Int) - 60 * ((after.steps : Int) - w.steps) = 0 := by
    rw [htracks.steps, h.steps]
    omega
  let session := { after.session with machine := after.session.machine.tick }
  have hu' : Uninterrupted viewer { after with session } (showings + 1) := by
    rw [Uninterrupted, hshown]
    exact hu
  obtain ⟨next, shown, hannounce, hnext, hrest⟩ := hu'.announce (60 * size)
    (.running (60 * size) after.steps session.machine.pc)
  refine ⟨next, ?_, hrest, ?_⟩
  · -- The tick leaves the keys alone.
    have hkeys : (m.after size).tick.keypad.states = after.session.held :=
      (congrArg Keypad.states (Machine.tick_keypad _)).trans htracks.drives.keys
    rw [hnext]
    exact ⟨⟨congrArg Machine.tick htracks.drives.machine, hkeys⟩, htracks.breakpoints,
      htracks.steps⟩
  · rw [runFrames]
    simp only [frame, earned_toNat, hburst, hleft, session, hannounce]
    cases Debugger.limitMet (some limit) next.steps with
    | true => rfl
    | false => rfl

/-- A timed run that earns `size` steps in each frame, up to a limit of whole frames, leaves the
    machine that a loop over the frames leaves. -/
theorem runFrames_machine {size count frames : Nat} {r : Run ρ} (hr : r.obstacle = none)
    (h : w.Tracks r.machine steps) (hsize : 1 ≤ size) (hframes : count < frames)
    (hu : Uninterrupted viewer w (count + 1)) :
    (runFrames .plain viewer (60 * size) (some (steps + (count + 1) * size : Nat)) frames 0
        w).session.machine =
      (Run.frames size (count + 1) r).machine := by
  obtain ⟨frames, rfl⟩ : ∃ rest, frames = rest + 1 := ⟨frames - 1, by omega⟩
  -- Induction on the frames behind the first; the limit moves along with the steps counted.
  induction count generalizing w r steps frames with
  | zero =>
    have hle : ((steps + size : Nat) : Int) ≤ (steps + (0 + 1) * size : Nat) := by omega
    obtain ⟨hc, last, -, hm, hlast⟩ | ⟨hc, hm⟩ := r.frames_cases size hr
    -- The only frame completes: it spends the limit, and the run ends with the words for that.
    · obtain ⟨next, hnext, -, hrun⟩ := h.runFrames_of_completes hc hle hu frames
      have hmet : Debugger.limitMet (some (steps + (0 + 1) * size : Nat)) next.steps = true := by
        simp only [Debugger.limitMet, hnext.steps, decide_eq_true_eq]
        omega
      rw [hrun, if_pos hmet, announce_machine, hnext.drives.machine, hlast, ← hm]
      rfl
    · rw [hm]
      exact h.runFrames_of_not_completes hc hle frames
  | succ count ih =>
    -- The limit leaves the first frame and, behind it, at least one more.
    have hsum : steps + (count + 1 + 1) * size = (steps + size) + (count + 1) * size := by
      rw [Nat.succ_mul (count + 1)]
      omega
    have hpos : size ≤ (count + 1) * size := Nat.le_mul_of_pos_left size (Nat.succ_pos count)
    rw [hsum]
    have hle : ((steps + size : Nat) : Int) ≤ (steps + size + (count + 1) * size : Nat) := by omega
    obtain ⟨hc, following, ho, hm, hfollowing⟩ | ⟨hc, hm⟩ := r.frames_cases size hr
    · obtain ⟨next, hnext, hrest, hrun⟩ := h.runFrames_of_completes hc hle hu frames
      have hlt : ((steps + size : Nat) : Int) < (steps + size + (count + 1) * size : Nat) := by
        omega
      rw [hrun, if_neg (ne_true_of_eq_false (hnext.limitMet hlt)), hfollowing]
      rw [← hm] at hnext
      obtain ⟨frames, rfl⟩ : ∃ rest, frames = rest + 1 := ⟨frames - 1, by omega⟩
      exact ih ho hnext hrest frames (by omega)
    · rw [hm]
      exact h.runFrames_of_not_completes hc hle frames

end Tracks

/-- The first step of a frame tells the machine of the keys. -/
private theorem burst_holdKeys {limit : Option Int} (hlimit : limitMet limit w.steps = false)
    (left : Nat) :
    burst limit (left + 1) { w with session := w.session.holdKeys } =
      burst limit (left + 1) w := by
  -- Only the first step looks at the keys that the machine knows.
  have hkeys : w.session.holdKeys.stepWithKeys = w.session.stepWithKeys :=
    w.session.stepWithKeys_holdKeys
  simp only [burst, hlimit, hkeys, Bool.false_eq_true, if_false]

/-- Whether the machine has been told of the keys does not matter to a run that takes a step in its
    first frame. -/
private theorem runFrames_holdKeys {hz budget : Int} {limit : Option Int} (write : Notice.Writer)
    (hlimit : limitMet limit w.steps = false) (hearned : 0 < ((budget + hz) / 60).toNat)
    (frames : Nat) :
    runFrames write viewer hz limit (frames + 1) budget { w with session := w.session.holdKeys } =
      runFrames write viewer hz limit (frames + 1) budget w := by
  obtain ⟨left, hleft⟩ : ∃ left, ((budget + hz) / 60).toNat = left + 1 :=
    ⟨((budget + hz) / 60).toNat - 1, by omega⟩
  have hburst := burst_holdKeys (w := { w with session := w.session.remember }) hlimit left
  have hburst' : burst limit (left + 1)
      { w with session := w.session.holdKeys.remember } =
      burst limit (left + 1) { w with session := w.session.remember } := hburst
  rw [runFrames, runFrames]
  simp only [frame, hleft, hburst']

end Watch

/-! ## Agreement -/

/-- A timed run of whole frames leaves the machine that a loop over the frames leaves. -/
private theorem Session.runAtSpeed_machine {viewer : Option (Viewer ρ α)} {size frames : Nat}
    (hfault : s.machine.fault = none) (hbreak : s.breakpoints = []) (hsize : 1 ≤ size)
    (hframes : 1 ≤ frames) (hu : ∀ v ∈ viewer, ∀ patience ∈ v.patience, frames < patience)
    (horizon : Nat) :
    (s.runAtSpeed (60 * size) (some (frames * size : Nat)) viewer horizon).session.machine =
      (Run.frames size frames (.start (s.machine.hold s.held))).machine := by
  have hbound := Watch.lt_frameBound hsize hu horizon
  obtain ⟨bound, heq⟩ : ∃ bound, Watch.frameBound viewer (60 * size)
      (some (frames * size : Nat)) horizon = bound + 1 :=
    Nat.exists_eq_succ_of_ne_zero (by omega)
  -- The first frame takes a step, as its limit and what it earns are positive.
  have hpos : 0 < frames * size := Nat.mul_pos hframes hsize
  have hlimit : limitMet (some ((frames * size : Nat) : Int)) 0 = false := by
    simp only [limitMet, decide_eq_false_iff_not]
    omega
  have hearned : 0 < ((0 + 60 * (size : Int)) / 60).toNat := by omega
  -- The run of the session is the run of the session that has told its machine the keys.
  have hkeys : Watch.runFrames .plain viewer (60 * size) (some (frames * size : Nat)) (bound + 1) 0
        ({ session := s.holdKeys } : Watch ρ α) =
      Watch.runFrames .plain viewer (60 * size) (some (frames * size : Nat)) (bound + 1) 0
        { session := s } :=
    Watch.runFrames_holdKeys (w := { session := s }) .plain hlimit hearned bound
  simp only [Session.runAtSpeed, hfault, heq, ← hkeys]
  have htracks : ({ session := s.holdKeys } : Watch ρ α).Tracks (s.machine.hold s.held) 0 :=
    ⟨s.drives_holdKeys, hbreak, rfl⟩
  have hu' : Watch.Uninterrupted viewer ({ session := s.holdKeys } : Watch ρ α) frames := by
    intro v hv patience hpatience
    have hlt := hu v hv patience hpatience
    simp only [List.size_toArray, List.length_nil]
    omega
  obtain ⟨count, rfl⟩ : ∃ count, frames = count + 1 := ⟨frames - 1, by omega⟩
  have hagree := htracks.runFrames_machine (r := .start (s.machine.hold s.held)) rfl hsize
    (show count < bound + 1 by omega) hu'
  rw [Nat.zero_add] at hagree
  exact hagree

/-- Single steps, counted in frames, leave the machine that a loop over the frames leaves. -/
private theorem Session.after_machine {size frames : Nat} (hfault : s.machine.fault = none)
    (hpace : s.stepsPerFrame = size) (hdone : s.frameSteps = 0) (hsize : 1 ≤ size)
    (hframes : 1 ≤ frames) :
    (s.after (frames * size)).machine =
      (Run.frames size frames (.start (s.machine.hold s.held))).machine := by
  have hpaced : s.holdKeys.Paced size 0 (s.machine.hold s.held) :=
    ⟨s.drives_holdKeys, hpace, hdone⟩
  have hagree := hpaced.after_frames (r := .start (s.machine.hold s.held)) rfl hsize frames
  have hpos : 0 < frames * size := Nat.mul_pos hframes hsize
  obtain ⟨count, hcount⟩ : ∃ count, frames * size = count + 1 :=
    Nat.exists_eq_succ_of_ne_zero (by omega)
  rw [hcount, Session.after_holdKeys hfault, ← hcount] at hagree
  exact hagree

/-- After a program that fits is loaded into a new machine, frames run in a loop up to the first
    obstacle, a timed run without breakpoints that is not interrupted, and as many single steps
    leave the same machine. -/
theorem drivers_agree {random : ρ} {program : List UInt8} {held : KeyStates} {steps frames : Nat}
    (fits : program.length ≤ programLimit) (hsteps : 1 ≤ steps) (hframes : 1 ≤ frames) :
    ∃ start note, (Machine.fresh random).loadProgram program = .ok (start, note) ∧
      ∀ (viewer : Option (Viewer ρ α)) (horizon : Nat) (timed stepped : Session ρ),
        (∀ v ∈ viewer, ∀ patience ∈ v.patience, frames < patience) →
        timed.machine = start → timed.held = held → timed.breakpoints = [] →
        stepped.machine = start → stepped.held = held →
        stepped.stepsPerFrame = steps → stepped.frameSteps = 0 →
        let run := Run.frames steps frames (.start (start.hold held))
        (timed.runAtSpeed (60 * steps) (some (frames * steps : Nat)) viewer
          horizon).session.machine = run.machine ∧
        (stepped.after (frames * steps)).machine = run.machine := by
  obtain ⟨_, note, hload⟩ | ⟨hlt, _⟩ := (Machine.fresh random).loadProgram_cases program
  -- The program fits, so that there is a machine to start from.
  · refine ⟨_, note, hload, ?_⟩
    intro viewer horizon timed stepped hu htimed hheld hbreak hstepped hheld' hpace hdone
    have hfault : timed.machine.fault = none := by
      rw [htimed]
      rfl
    have hfault' : stepped.machine.fault = none := by
      rw [hstepped]
      rfl
    have htimedRun := timed.runAtSpeed_machine hfault hbreak hsteps hframes hu horizon
    have hsteppedRun := stepped.after_machine hfault' hpace hdone hsteps hframes
    rw [htimed, hheld] at htimedRun
    rw [hstepped, hheld'] at hsteppedRun
    exact ⟨htimedRun, hsteppedRun⟩
  · exact absurd fits (by omega)

/-- The program sets a timer, reads it in the second frame, and then returns from nowhere: the first
    frame brings its tick, the second does not. -/
theorem drivers_agree_faultingFrame :
    ∃ start note, (Machine.fresh (Replay.ofInts [7])).loadProgram
        [0x60, 0x05, 0xF0, 0x15, 0xF1, 0x07, 0x00, 0xEE] = .ok (start, note) ∧
      let held := KeyStates.holding [3]
      let timed : Session Replay := { machine := start, held }
      let stepped : Session Replay := { machine := start, held, stepsPerFrame := 2 }
      let run := Run.frames 2 3 (.start (start.hold held))
      (timed.runAtSpeed 120 (some 6) (none : Option (Viewer Replay Unit)) 0).session.machine =
        run.machine ∧
      (stepped.after 6).machine = run.machine ∧
      run.machine.fault = some (.stackUnderflow 0x206) ∧ run.machine.timers.delay = 4 := by
  obtain ⟨start, note, hload, hagree⟩ :=
    @drivers_agree Replay Unit _ (Replay.ofInts [7])
      [0x60, 0x05, 0xF0, 0x15, 0xF1, 0x07, 0x00, 0xEE] (.holding [3]) 2 3
      (by decide) (by decide) (by decide)
  obtain ⟨htimed, hstepped⟩ := hagree none 0 { machine := start, held := .holding [3] }
    { machine := start, held := .holding [3], stepsPerFrame := 2 } nofun rfl rfl rfl rfl rfl rfl rfl
  refine ⟨start, note, hload, htimed, hstepped, ?_⟩
  obtain ⟨-, _, hfits⟩ | ⟨hlong, -⟩ := (Machine.fresh (Replay.ofInts [7])).loadProgram_cases
    [0x60, 0x05, 0xF0, 0x15, 0xF1, 0x07, 0x00, 0xEE]
  · rw [hfits] at hload
    rw [← (Prod.mk.inj (Except.ok.inj hload)).1]
    decide +kernel
  · exact absurd hlong (by decide)

end Debugger

end Chip8
