import Chip8.Proofs.Beats
import Chip8.Proofs.Commands
import Chip8.Proofs.Wording
import Mathlib.Logic.ExistsUnique

/-!
# The schedule of timed runs

A timed run keeps a budget of sixtieths of a step, which it carries over from frame to frame. With
it the run takes its steps in the frames in which they are earned, and ends each frame with a tick,
until the first of four events: a step that meets an obstacle or leads to a breakpoint takes the run
out of its frame before the tick; the viewer may interrupt the showing of a frame; and when the
limit is reached, the frame is brought to its end. Exactly one of these comes first, and it decides
how many steps were taken, how many ticks were delivered and what was shown.

A run tells its speed and the number of its steps at every frame. So all this is about runs of
which the two can be written; at a speed that cannot, a run is broken off behind its first tick.

## Key results

- `Watch.OnTime.burst`: the steps of a frame are on schedule
- `Watch.OpensFrame.closes_or_stops`, `Watch.OpensFrame.runFrames`: a frame, and all frames
- `Session.Meets`, `Session.Meets.unique`: what ends a run
- `Session.runAtSpeed_schedule`: timed runs end, and on schedule
- `Session.runAtSpeed_off_schedule`: what takes a timed run off its schedule
-/

namespace Chip8

namespace Debugger

variable {ρ α : Type}

-- Powers are those of natural numbers here, and not those of a monoid.
attribute [local instance (1100)] instPowNat

/-! ## Interruptions -/

/-- Whether the viewer interrupts a showing, the showings being counted from one. -/
def interrupts (viewer : Option (Viewer ρ α)) (showing : Nat) : Bool :=
  viewer.any fun v => v.patience.any fun patience => patience ≤ showing

/-- The viewer does not interrupt so many showings. -/
def Undisturbed (viewer : Option (Viewer ρ α)) (showings : Nat) : Prop :=
  ∀ k, 1 ≤ k → k ≤ showings → interrupts viewer k = false

/-- The viewer never interrupts. -/
def Watch.Patient (viewer : Option (Viewer ρ α)) : Prop :=
  ∀ v ∈ viewer, v.patience = none

/-- A patient viewer interrupts no showing. -/
theorem Watch.Patient.interrupts {viewer : Option (Viewer ρ α)} (h : Patient viewer)
    (showing : Nat) : interrupts viewer showing = false := by
  cases viewer with
  | none => rfl
  | some v =>
    rw [Debugger.interrupts, Option.any_some, h v rfl]
    rfl

/-- A showing that is not interrupted is one more of them. -/
private theorem Undisturbed.succ {viewer : Option (Viewer ρ α)} {showings : Nat}
    (h : Undisturbed viewer showings) (hnext : interrupts viewer (showings + 1) = false) :
    Undisturbed viewer (showings + 1) := by
  intro k hpos hk
  -- The showings up to the last one were undisturbed, and the next one is by assumption.
  obtain hk | rfl := Nat.lt_or_eq_of_le hk
  · exact h k hpos (Nat.le_of_lt_succ hk)
  · exact hnext

/-- A viewer interrupts when the patience is over. -/
private theorem Undisturbed.lt_patience {viewer : Option (Viewer ρ α)} {showings : Nat}
    (h : Undisturbed viewer showings) {v : Viewer ρ α} (hv : v ∈ viewer) {patience : Nat}
    (hpatience : patience ∈ v.patience) : showings = 0 ∨ showings < patience := by
  by_contra hnot
  -- The last showing would be one that the viewer interrupts.
  have hcalm := h showings (by omega) (Nat.le_refl _)
  rw [interrupts, show viewer = some v from hv, Option.any_some,
    show v.patience = some patience from hpatience, Option.any_some] at hcalm
  have := of_decide_eq_false hcalm
  omega

namespace Watch

variable {viewer : Option (Viewer ρ α)} {w : Watch ρ α} {showings : Nat}

/-- A showing is one more, and the viewer may interrupt it. -/
private theorem exists_show? (h : ∀ v ∈ viewer, w.shown.size = showings) :
    ∃ shown : Array α, w.show? viewer = (interrupts viewer (showings + 1), { w with shown }) ∧
      ∀ v ∈ viewer, shown.size = showings + 1 := by
  -- Without a viewer nothing is shown, and nothing is counted either.
  unfold show?
  cases viewer with
  | none => exact ⟨w.shown, rfl, fun v hv => by cases hv⟩
  | some v =>
    have hsize : (w.shown.push (v.picture w.session)).size = showings + 1 := by
      rw [Array.size_push, h v rfl]
    refine ⟨w.shown.push (v.picture w.session), ?_, fun _ _ => hsize⟩
    cases hp : v.patience with
    | none => simp only [interrupts, Option.any_some, hp, Option.any_none]
    | some patience => simp only [interrupts, Option.any_some, hp, hsize]

/-- What is announced is told and shown, unless the viewer interrupts and has the last word. -/
private theorem exists_announce (h : ∀ v ∈ viewer, w.shown.size = showings) (hz : Int)
    (notice : Notice) :
    ∃ shown : Array α, w.announce .plain viewer hz notice =
        (interrupts viewer (showings + 1),
          { w with
            session := w.session.tell
              (if interrupts viewer (showings + 1) then .paused w.steps hz else notice)
            shown }) ∧
      ∀ v ∈ viewer, shown.size = showings + 1 := by
  obtain ⟨shown, hshow, hsize⟩ := exists_show?
    (w := { w with session := w.session.tell notice }) h
  refine ⟨shown, ?_, hsize⟩
  simp only [announce, Notice.Writer.plain, hshow]
  cases interrupts viewer (showings + 1) with
  | true => simp only [Watch.tell, if_true]; rfl
  | false => rfl

/-- The frames that a limited run is given are enough for its steps, or for its viewer. -/
private theorem frameBound_enough {hz : Nat} (hhz : 1 ≤ hz) (viewer : Option (Viewer ρ α))
    (limit horizon : Nat) :
    frameOf hz limit ≤ frameBound viewer hz (some limit) horizon ∨
      ∃ v ∈ viewer, ∃ patience ∈ v.patience,
        patience < frameBound viewer hz (some limit) horizon := by
  -- The viewer's patience bounds the frames, if there is one; else the limit and the speed do.
  cases hpatience : viewer.bind (·.patience) with
  | none =>
    have hpos : (0 : Int) < hz := by omega
    have hbound : frameBound viewer hz (some limit) horizon = 60 * limit / hz + 1 := by
      simp only [frameBound, hpatience, if_pos hpos]
      rfl
    left
    rw [hbound]
    refine (frameOf_le_iff hhz).2 (Nat.le_of_lt ?_)
    rw [Nat.mul_comm _ hz]
    exact Nat.lt_mul_div_succ _ hhz
  | some patience =>
    obtain ⟨v, hv, hp⟩ := Option.bind_eq_some_iff.1 hpatience
    refine .inr ⟨v, hv, patience, hp, ?_⟩
    simp only [frameBound, hpatience]
    omega

end Watch

/-- A run that has taken as many steps as its limit has met it. -/
private theorem limitMet_self (limit : Nat) : limitMet (some (limit : Int)) limit = true := by
  simp only [limitMet, Int.le_refl, decide_true]

/-- A run that has taken fewer steps has not met it. -/
private theorem limitMet_of_lt {limit steps : Nat} (h : steps < limit) :
    limitMet (some (limit : Int)) steps = false := by
  simp only [limitMet, decide_eq_false_iff_not]
  omega

/-! ## What can happen in a step -/

variable [ByteSource ρ]

namespace Session

/-- The machine of a session after so many steps and ticks on schedule. -/
def scheduled (s : Session ρ) (hz steps ticks : Nat) : Machine ρ :=
  s.machine.play s.held (Beat.timetable hz steps ticks)

/-- The `n`-th step on schedule, counted from one. -/
def stepOf (s : Session ρ) (hz n : Nat) : Step ρ :=
  ((s.scheduled hz (n - 1) (frameOf hz n - 1)).hold s.held).step

/-- What there is in the `n`-th step to stop a timed run. -/
def stopOf (s : Session ρ) (hz n : Nat) : Option Stop :=
  ((s.stepOf hz n).obstacle.map .obstacle).or
    (if { s with machine := (s.stepOf hz n).machine }.atBreakpoint then some .breakpoint else none)

/-- Nothing stops a timed run in its first `n` steps. -/
def Calm (s : Session ρ) (hz n : Nat) : Prop :=
  ∀ k, 1 ≤ k → k ≤ n → s.stopOf hz k = none

end Session

/-- How many of `n` steps are completed if the last one stops the run. -/
def Stop.completed (n : Nat) : Stop → Nat
  | .breakpoint => n
  | .obstacle _ => n - 1

namespace Watch

variable {s : Session ρ} {hz frames limit left : Nat} {w after : Watch ρ α}

/-! ## A frame -/

/-- A timed run of the session has gone through `frames` frames, and its machine is on schedule. -/
structure OnTime (s : Session ρ) (hz frames : Nat) (w : Watch ρ α) : Prop where
  machine : w.session.machine = s.scheduled hz w.steps frames
  held : w.session.held = s.held
  breakpoints : w.session.breakpoints = s.breakpoints
  cycles : w.session.machine.cycles = s.machine.cycles + w.steps
  calm : s.Calm hz w.steps

/-- Within a frame nothing changes but the machine, the count of steps and the reports. -/
structure Within (w after : Watch ρ α) : Prop where
  session : after.session = { w.session with machine := after.session.machine }
  shown : after.shown = w.shown
  failure : after.failure = w.failure
  unfinished : after.unfinished = w.unfinished

omit [ByteSource ρ] in
/-- What changes nothing within a frame, twice over, changes nothing. -/
theorem Within.trans {next : Watch ρ α} (h : Within w next) (h' : Within next after) :
    Within w after where
  session := by rw [h'.session, h.session]
  shown := h'.shown.trans h.shown
  failure := h'.failure.trans h.failure
  unfinished := h'.unfinished.trans h.unfinished

/-- A timed run that was stopped in its `n`-th step. -/
structure Stopped (s : Session ρ) (hz frames n : Nat) (stop : Stop) (w : Watch ρ α) : Prop where
  machine : w.session.machine = s.scheduled hz n frames
  cycles : w.session.machine.cycles = s.machine.cycles + w.steps
  steps : w.steps = stop.completed n
  calm : s.Calm hz (n - 1)
  stop : s.stopOf hz n = some stop

/-- One turn of the loop over the steps of a frame, if a step is earned in it. -/
private theorem OnTime.burst_succ (h : w.OnTime s hz frames) (hlt : w.steps < limit)
    (hnow : frameOf hz (w.steps + 1) = frames + 1) (left : Nat) :
    ∃ next : Watch ρ α, w.Within next ∧
      ((next.OnTime s hz frames ∧ next.steps = w.steps + 1 ∧
          Watch.burst (some limit) (left + 1) w = Watch.burst (some limit) left next) ∨
        ∃ stop, next.Stopped s hz frames (w.steps + 1) stop ∧
          Watch.burst (some limit) (left + 1) w = (some stop, next)) := by
  -- The step on schedule is the one that the loop takes: same machine, same keys held.
  obtain ⟨step, hstep⟩ : ∃ step, s.stepOf hz (w.steps + 1) = step := ⟨_, rfl⟩
  have htaken : (w.session.machine.hold w.session.held).step = step := by
    rw [h.machine, h.held, ← hstep, Session.stepOf, hnow]
    rfl
  have hkeys : w.session.stepWithKeys =
      ({ w.session with machine := step.machine }, step.obstacle, step.note) := by
    rw [← htaken]
    rfl
  -- The timetable gets the step appended, as the frame is the one in which it is earned.
  have hmachine : step.machine = s.scheduled hz (w.steps + 1) frames := by
    rw [Session.scheduled, Beat.timetable_add_step hnow, Machine.play_append_singleton, ← htaken,
      h.machine, h.held]
    rfl
  have hcycles : step.machine.cycles =
      s.machine.cycles + w.steps + if step.obstacle = none then 1 else 0 := by
    rw [← htaken, Machine.step_cycles, ← h.cycles]
    rfl
  cases ho : step.obstacle with
  -- The step met an obstacle: it is counted neither by the machine nor by the run.
  | some obstacle =>
    refine ⟨{ w with
      session := { w.session with machine := step.machine }, notes := addNote w.notes step.note },
      ⟨rfl, rfl, rfl, rfl⟩, .inr ⟨.obstacle obstacle, ⟨hmachine, ?_, rfl, h.calm, ?_⟩, ?_⟩⟩
    · rw [hcycles, ho]
      rfl
    · rw [Session.stopOf, hstep, ho]
      rfl
    · simp only [Watch.burst, limitMet_of_lt hlt, hkeys, ho, Bool.false_eq_true, if_false]
  -- The step completed, and only a breakpoint at the new address can stop the run behind it.
  | none =>
    rw [ho, if_pos rfl, Nat.add_assoc] at hcycles
    refine ⟨{ w with
      session := { w.session with machine := step.machine }
      steps := w.steps + 1
      notes := addNote w.notes step.note }, ⟨rfl, rfl, rfl, rfl⟩, ?_⟩
    by_cases hb : step.machine.pc ∈ s.breakpoints
    · refine .inr ⟨.breakpoint, ⟨hmachine, hcycles, rfl, h.calm, ?_⟩, ?_⟩
      · simp only [Session.stopOf, hstep, ho, Session.atBreakpoint, hb, decide_true, if_true,
          Option.map_none, Option.none_or]
      · simp only [Watch.burst, limitMet_of_lt hlt, hkeys, ho, Session.atBreakpoint, h.breakpoints,
          hb, decide_true, Bool.false_eq_true, if_false, if_true]
    · refine .inl ⟨⟨hmachine, h.held, h.breakpoints, hcycles, fun k hpos hk => ?_⟩, rfl, ?_⟩
      -- Nothing stopped the earlier steps, and now not this one.
      · obtain hk | rfl := Nat.lt_or_eq_of_le hk
        · exact h.calm k hpos (Nat.le_of_lt_succ hk)
        · simp only [Session.stopOf, hstep, ho, Session.atBreakpoint, hb, decide_false,
            Bool.false_eq_true, if_false, Option.map_none, Option.none_or]
      · simp only [Watch.burst, limitMet_of_lt hlt, hkeys, ho, Session.atBreakpoint, h.breakpoints,
          hb, decide_false, Bool.false_eq_true, if_false]

/-- The steps of a frame: all that it has earned, up to the limit, or up to a stop. -/
theorem OnTime.burst (h : w.OnTime s hz frames) (hhz : 1 ≤ hz) (hle : w.steps ≤ limit)
    (hearly : frames * hz < 60 * (w.steps + 1))
    (hroom : 60 * (w.steps + left) ≤ (frames + 1) * hz) :
    ∃ after : Watch ρ α, w.Within after ∧
      ((after.OnTime s hz frames ∧ after.steps = min (w.steps + left) limit ∧
          Watch.burst (some limit) left w = (none, after)) ∨
        ∃ n stop, w.steps < n ∧ n ≤ min (w.steps + left) limit ∧
          after.Stopped s hz frames n stop ∧
          Watch.burst (some limit) left w = (some stop, after)) := by
  -- Induction on the steps left in the frame; `OnTime` is carried from each step to the next.
  induction left generalizing w with
  | zero => exact ⟨w, ⟨rfl, rfl, rfl, rfl⟩, .inl ⟨h, by omega, rfl⟩⟩
  | succ left ih =>
    -- At the limit the burst ends, however much of the frame is left.
    by_cases hmet : w.steps = limit
    · refine ⟨w, ⟨rfl, rfl, rfl, rfl⟩, .inl ⟨h, by omega, ?_⟩⟩
      simp only [Watch.burst, hmet, limitMet_self, if_true]
    -- The step is earned in this frame: too late for the one before, and there is room in this
    -- one.
    · have hnow : frameOf hz (w.steps + 1) = frames + 1 := frameOf_eq hhz hearly (by omega)
      have hlt : w.steps < limit := by omega
      obtain ⟨next, hwithin, hturn⟩ := h.burst_succ hlt hnow left
      obtain ⟨hnext, hsteps, hburst⟩ | ⟨stop, hstopped, hburst⟩ := hturn
      · obtain ⟨after, hrest, hends⟩ := ih hnext (by omega) (by omega) (by omega)
        refine ⟨after, hwithin.trans hrest, ?_⟩
        rw [hburst]
        obtain ⟨hafter, hcount, hall⟩ | ⟨n, stop, hlt, hbound, hstopped, hcut⟩ := hends
        · exact .inl ⟨hafter, by omega, hall⟩
        · exact .inr ⟨n, stop, by omega, by omega, hstopped, hcut⟩
      · refine ⟨next, hwithin, .inr ⟨w.steps + 1, stop, ?_, ?_, hstopped, hburst⟩⟩
        · exact Nat.lt_succ_self _
        · omega

end Watch

/-! ## How a timed run ends -/

/-- What ends a timed run of at most so many steps. -/
inductive Ending
  | limit
  -- What the `n`-th step comes to.
  | stop (n : Nat) (what : Stop)
  -- The viewer interrupts the showing of frame `j`.
  | interruption (j : Nat)
deriving DecidableEq, Repr

namespace Ending

variable (hz limit : Nat)

/-- The steps that were taken, the one that stopped the run included. -/
def steps : Ending → Nat
  | .limit => limit
  | stop n _ => n
  | interruption j => min limit (j * hz / 60)

/-- The frame in which the run ends. -/
def frame : Ending → Nat
  | .limit => frameOf hz limit
  | stop n _ => frameOf hz n
  | interruption j => j

/-- The ticks that were delivered: a frame that is cut short has none. -/
def ticks : Ending → Nat
  | stop n _ => frameOf hz n - 1
  | ending => ending.frame hz limit

/-- The steps that were completed. -/
def completed : Ending → Nat
  | stop n what => what.completed n
  | ending => ending.steps hz limit

/-- The showings: one for each frame, and one for the last words behind the tick of the last frame
    or in its place. -/
def showings : Ending → Nat
  | .limit => frameOf hz limit + 1
  | stop n (.obstacle (.source _)) => frameOf hz n - 1
  | stop n _ => frameOf hz n
  | interruption j => j

/-- What broke the run off, if the source refused a byte. -/
def failure : Ending → Option Failure
  | stop _ (.obstacle (.source error)) => some (.source error)
  | _ => none

/-- The last words, at the address at which the machine stands. -/
def notice? (pc : Address) : Ending → Option Notice
  | .limit => some (.timedLimit limit)
  | stop n .breakpoint => some (.timedBreakpoint pc n hz)
  | stop n (.obstacle (.fault fault)) => some (.timedFatal (n - 1) fault)
  | stop _ (.obstacle (.source _)) => none
  | interruption j => some (.paused (min limit (j * hz / 60)) hz)

end Ending

/-- Of all that could end a timed run of the session, this comes first. -/
inductive Session.Meets (s : Session ρ) (hz limit : Nat) (viewer : Option (Viewer ρ α)) :
    Ending → Prop
  | limit (calm : s.Calm hz limit) (undisturbed : Undisturbed viewer (frameOf hz limit)) :
    Meets s hz limit viewer .limit
  | stop {n : Nat} {what : Stop} (pos : 1 ≤ n) (within : n ≤ limit) (calm : s.Calm hz (n - 1))
    (stops : s.stopOf hz n = some what) (undisturbed : Undisturbed viewer (frameOf hz n - 1)) :
    Meets s hz limit viewer (.stop n what)
  | interruption {j : Nat} (pos : 1 ≤ j) (within : j ≤ frameOf hz limit)
    (calm : s.Calm hz (min limit (j * hz / 60))) (undisturbed : Undisturbed viewer (j - 1))
    (interrupted : interrupts viewer j = true) : Meets s hz limit viewer (.interruption j)

namespace Watch

variable {s : Session ρ} {hz frames limit left : Nat} {w : Watch ρ α}
  {viewer : Option (Viewer ρ α)} {budget : Int}

/-- A timed run that has ended, as the ending says. -/
structure EndsAs (s : Session ρ) (hz limit : Nat) (viewer : Option (Viewer ρ α)) (ending : Ending)
    (w : Watch ρ α) : Prop where
  machine : w.session.machine = s.scheduled hz (ending.steps hz limit) (ending.ticks hz limit)
  cycles : w.session.machine.cycles = s.machine.cycles + ending.completed hz limit
  steps : w.steps = ending.completed hz limit
  previous : w.session.previous = (s.scheduled hz ((ending.frame hz limit - 1) * hz / 60)
    (ending.frame hz limit - 1)).registers
  notice : ∀ notice ∈ ending.notice? hz limit w.session.machine.pc, w.session.notice =
    if interrupts viewer (ending.showings hz limit) then .paused (ending.completed hz limit) hz
    else notice
  shown : ∀ v ∈ viewer, w.shown.size = ending.showings hz limit
  failure : w.failure = ending.failure
  finished : w.unfinished = false

/-- A timed run at the beginning of a frame: less than a step is left in the budget. -/
structure OpensFrame (s : Session ρ) (hz limit : Nat) (viewer : Option (Viewer ρ α)) (frames : Nat)
    (budget : Int) (w : Watch ρ α) : Prop where
  onTime : w.OnTime s hz frames
  goesOn : w.steps < limit
  budget : budget = (frames * hz : Nat) - 60 * (w.steps : Int)
  spent : 60 * w.steps ≤ frames * hz
  early : frames * hz < 60 * (w.steps + 1)
  undisturbed : Undisturbed viewer frames
  shown : ∀ v ∈ viewer, w.shown.size = frames
  failure : w.failure = none
  framesLeft : w.unfinished = false

/-- A timed run at the end of a frame, which has been shown. -/
structure ClosesFrame (s : Session ρ) (hz limit : Nat) (viewer : Option (Viewer ρ α)) (frames : Nat)
    (w : Watch ρ α) : Prop where
  onTime : w.OnTime s hz frames
  steps : w.steps = min limit (frames * hz / 60)
  previous : w.session.previous =
    (s.scheduled hz ((frames - 1) * hz / 60) (frames - 1)).registers
  shown : ∀ v ∈ viewer, w.shown.size = frames
  failure : w.failure = none
  framesLeft : w.unfinished = false

/-- An interruption ends the run behind the tick of the frame. -/
private theorem ClosesFrame.endsAs_interruption (h : w.ClosesFrame s hz limit viewer frames)
    (hinterrupted : interrupts viewer frames = true)
    (hpaused : w.session.notice = .paused w.steps hz) :
    w.EndsAs s hz limit viewer (.interruption frames) where
  machine := h.onTime.machine.trans (by rw [h.steps]; rfl)
  cycles := h.onTime.cycles.trans (by rw [h.steps]; rfl)
  steps := h.steps
  previous := h.previous
  notice notice hnotice := by
    cases hnotice
    show w.session.notice = if interrupts viewer frames = true then _ else _
    rw [if_pos hinterrupted, hpaused, h.steps]
    rfl
  shown := h.shown
  failure := h.failure
  finished := h.framesLeft

/-- The limit ends the run behind the tick of the frame. -/
private theorem ClosesFrame.endsAs_limit (h : w.ClosesFrame s hz limit viewer frames)
    (hmet : w.steps = limit) (hframe : frameOf hz limit = frames) :
    (w.announce .plain viewer hz (.timedLimit w.steps)).2.EndsAs s hz limit viewer .limit := by
  subst hframe
  -- The last words come behind the tick and are shown like any others.
  obtain ⟨shown, hannounce, hsize⟩ := exists_announce h.shown hz (.timedLimit w.steps)
  rw [hannounce]
  constructor
  · show w.session.machine = s.scheduled hz limit (frameOf hz limit)
    rw [h.onTime.machine, hmet]
  · show w.session.machine.cycles = s.machine.cycles + limit
    rw [h.onTime.cycles, hmet]
  · exact hmet
  · exact h.previous
  · intro notice hnotice
    cases hnotice
    show (if interrupts viewer (frameOf hz limit + 1) = true then _ else _) = _
    rw [hmet]
    rfl
  · exact hsize
  · exact h.failure
  · exact h.framesLeft

/-- Short of the limit, the next frame is opened. -/
private theorem ClosesFrame.opensFrame (h : w.ClosesFrame s hz limit viewer frames)
    (hlt : w.steps < limit) (hundisturbed : Undisturbed viewer frames) :
    w.OpensFrame s hz limit viewer frames ((frames * hz : Nat) - 60 * (w.steps : Int)) where
  onTime := h.onTime
  goesOn := hlt
  budget := rfl
  spent := by have := h.steps; omega
  early := by have := h.steps; omega
  undisturbed := hundisturbed
  shown := h.shown
  failure := h.failure
  framesLeft := h.framesLeft

/-- The tick at the end of a frame. -/
theorem OnTime.tick (h : w.OnTime s hz frames) (hdue : frameOf hz w.steps ≤ frames + 1)
    (notice : Notice) :
    { w with session := { w.session with machine := w.session.machine.tick }.tell notice }.OnTime s
      hz (frames + 1) where
  machine := by
    show w.session.machine.tick = s.scheduled hz w.steps (frames + 1)
    rw [Session.scheduled, Beat.timetable_add_tick hdue, Machine.play_append_singleton, h.machine]
    rfl
  held := h.held
  breakpoints := h.breakpoints
  cycles := by
    show w.session.machine.tick.cycles = s.machine.cycles + w.steps
    -- A tick moves the timers and leaves the count of cycles alone.
    rw [← h.cycles, Machine.tick]
    split
    · rfl
    · rfl
  calm := h.calm

/-- Where a run that was stopped in a step stands. -/
private theorem Stopped.stands {n : Nat} {stop : Stop} (h : w.Stopped s hz frames n stop)
    (hframe : frameOf hz n = frames + 1)
    (hprevious : w.session.previous = (s.scheduled hz (frames * hz / 60) frames).registers) :
    w.session.machine = s.scheduled hz n (frameOf hz n - 1) ∧
      w.session.machine.cycles = s.machine.cycles + stop.completed n ∧
      w.session.previous =
        (s.scheduled hz ((frameOf hz n - 1) * hz / 60) (frameOf hz n - 1)).registers := by
  rw [hframe, Nat.add_sub_cancel]
  exact ⟨h.machine, h.steps ▸ h.cycles, hprevious⟩

/-- A run that was stopped in a step ends with its last words. -/
private theorem Stopped.endsAs {n : Nat} {stop : Stop} {notice : Notice}
    (h : w.Stopped s hz frames n stop) (hframe : frameOf hz n = frames + 1)
    (hprevious : w.session.previous = (s.scheduled hz (frames * hz / 60) frames).registers)
    (hshown : ∀ v ∈ viewer, w.shown.size = frames) (hfailure : w.failure = none)
    (hframes : w.unfinished = false)
    (hnotice : (Ending.stop n stop).notice? hz limit w.session.machine.pc = some notice) :
    (w.announce .plain viewer hz notice).2.EndsAs s hz limit viewer (.stop n stop) := by
  obtain ⟨hmachine, hcycles, hstart⟩ := h.stands hframe hprevious
  obtain ⟨shown, hannounce, hsize⟩ := exists_announce hshown hz notice
  -- Two of the three stops have a showing in place of the tick, and no failure.
  have hshowings : (Ending.stop n stop).showings hz limit = frames + 1 ∧
      (Ending.stop n stop).failure = none := by
    cases stop with
    | breakpoint => exact ⟨hframe, rfl⟩
    | obstacle obstacle =>
      cases obstacle with
      | fault fault => exact ⟨hframe, rfl⟩
      | source error => cases hnotice
  rw [hannounce]
  refine ⟨hmachine, hcycles, h.steps, hstart, fun other hother => ?_, ?_, ?_, hframes⟩
  · obtain rfl : other = notice := Option.some.inj (hother.symm.trans hnotice)
    rw [hshowings.1, Ending.completed, ← h.steps]
    rfl
  · rw [hshowings.1]
    exact hsize
  · rw [hshowings.2]
    exact hfailure

/-- A run that was stopped in a step by a byte that the source refused ends without last words. -/
private theorem Stopped.endsAs_source {n : Nat} {error : SourceError}
    (h : w.Stopped s hz frames n (.obstacle (.source error))) (hframe : frameOf hz n = frames + 1)
    (hprevious : w.session.previous = (s.scheduled hz (frames * hz / 60) frames).registers)
    (hshown : ∀ v ∈ viewer, w.shown.size = frames) (hframes : w.unfinished = false) :
    { w with failure := some (.source error) }.EndsAs s hz limit viewer
      (.stop n (.obstacle (.source error))) := by
  obtain ⟨hmachine, hcycles, hstart⟩ := h.stands hframe hprevious
  refine ⟨hmachine, hcycles, h.steps, hstart, fun notice hnotice => ?_, ?_, rfl, hframes⟩
  · cases hnotice
  · show ∀ v ∈ viewer, w.shown.size = frameOf hz n - 1
    rw [hframe]
    exact hshown

/-- A frame whose steps are all taken is closed by the tick and the showing. -/
private theorem OnTime.closes (h : w.OnTime s hz frames) (hhz : 1 ≤ hz)
    (hsteps : w.steps = min limit ((frames + 1) * hz / 60))
    (hprevious : w.session.previous = (s.scheduled hz (frames * hz / 60) frames).registers)
    (hshown : ∀ v ∈ viewer, w.shown.size = frames) (hfailure : w.failure = none)
    (hframes : w.unfinished = false) :
    ∃ closed : Watch ρ α, closed.ClosesFrame s hz limit viewer (frames + 1) ∧
      closed.steps = w.steps ∧
      (interrupts viewer (frames + 1) = true → closed.session.notice = .paused closed.steps hz) ∧
      { w with session := { w.session with machine := w.session.machine.tick } }.announce .plain
        viewer hz (.running hz w.steps w.session.machine.tick.pc) =
          (interrupts viewer (frames + 1), closed) := by
  -- The tick comes when all steps of the frame are taken, and so none is due before it.
  have hdue : frameOf hz w.steps ≤ frames + 1 := (frameOf_le_iff hhz).2 (by omega)
  let ticked : Watch ρ α :=
    { w with session := { w.session with machine := w.session.machine.tick } }
  have hshown' : ∀ v ∈ viewer, ticked.shown.size = frames := hshown
  obtain ⟨shown, hannounce, hsize⟩ := exists_announce hshown' hz
    (.running hz w.steps w.session.machine.tick.pc)
  refine ⟨_, ?_, ?_, fun hinterrupted => ?_, hannounce⟩
  · have honTime := h.tick hdue
      (if interrupts viewer (frames + 1) then .paused w.steps hz
        else .running hz w.steps w.session.machine.tick.pc)
    exact
      { onTime := ⟨honTime.machine, honTime.held, honTime.breakpoints, honTime.cycles, honTime.calm⟩
        steps := hsteps
        previous := hprevious
        shown := hsize
        failure := hfailure
        framesLeft := hframes }
  · rfl
  · exact if_pos hinterrupted

/-- A frame goes on to its end, or a step stops the run in it. -/
theorem OpensFrame.closes_or_stops (h : w.OpensFrame s hz limit viewer frames budget)
    (hhz : 1 ≤ hz) :
    (∃ closed : Watch ρ α, closed.ClosesFrame s hz limit viewer (frames + 1) ∧
      (interrupts viewer (frames + 1) = true → closed.session.notice = .paused closed.steps hz) ∧
      w.frame .plain viewer hz (some limit) budget =
        if interrupts viewer (frames + 1) then (none, closed)
        else if limitMet (some (limit : Int)) closed.steps then
          (none, (closed.announce .plain viewer hz (.timedLimit closed.steps)).2)
        else (some (((frames + 1) * hz : Nat) - 60 * (closed.steps : Int)), closed)) ∨
    ∃ ending, s.Meets hz limit viewer ending ∧
      (w.frame .plain viewer hz (some limit) budget).1 = none ∧
      (w.frame .plain viewer hz (some limit) budget).2.EndsAs s hz limit viewer ending := by
  obtain ⟨honTime, hlt, hbudget, hspent, hearly, hundisturbed, hshown, hfailure, hframes⟩ := h
  have hsteps : frames * hz / 60 = w.steps := Nat.div_eq_of_lt_le (by omega) (by omega)
  have hnext : (frames + 1) * hz = frames * hz + hz := Nat.succ_mul frames hz
  have hremember : { w with session := w.session.remember }.OnTime s hz frames :=
    ⟨honTime.machine, honTime.held, honTime.breakpoints, honTime.cycles, honTime.calm⟩
  -- As many whole steps are taken as the budget has, and less than one is left over.
  obtain ⟨count, hcount⟩ : ∃ count, ((budget + hz) / 60).toNat = count := ⟨_, rfl⟩
  have hroom : 60 * (w.steps + count) ≤ (frames + 1) * hz := by omega
  have hrest : (frames + 1) * hz < 60 * (w.steps + count + 1) := by omega
  obtain ⟨after, hwithin, hends⟩ := hremember.burst hhz (Nat.le_of_lt hlt) hearly hroom
  have hshown' : ∀ v ∈ viewer, after.shown.size = frames := fun v hv => by
    rw [hwithin.shown]
    exact hshown v hv
  have hfailure' : after.failure = none := hwithin.failure.trans hfailure
  have hframes' : after.unfinished = false := hwithin.unfinished.trans hframes
  have hprevious : after.session.previous =
      (s.scheduled hz (frames * hz / 60) frames).registers := by
    rw [hwithin.session, hsteps, ← honTime.machine]
    rfl
  obtain ⟨hafter, hcompleted, hburst⟩ | ⟨n, stop, hmore, hbound, hstopped, hburst⟩ := hends
  · left
    dsimp only at hcompleted
    -- The frame is complete, and so the division has earned what was taken.
    have hwhole : (frames + 1) * hz / 60 = w.steps + count :=
      Nat.div_eq_of_lt_le (by omega) (by omega)
    have htaken : after.steps = min limit ((frames + 1) * hz / 60) := by omega
    obtain ⟨closed, hclosed, hsame, hpaused, hannounce⟩ :=
      hafter.closes hhz htaken hprevious hshown' hfailure' hframes'
    refine ⟨closed, hclosed, hpaused, ?_⟩
    have hleft : budget + hz - 60 * ((after.steps : Int) - w.steps) =
        ((frames + 1) * hz : Nat) - 60 * (after.steps : Int) := by omega
    simp only [Watch.frame, hcount, hburst, hannounce, hleft]
    rw [← hsame]
    cases interrupts viewer (frames + 1) with
    | true => rfl
    | false => rfl
  · right
    dsimp only at hmore hbound
    -- The step that stopped the run was earned in this frame, and the frame has no tick.
    have hframe : frameOf hz n = frames + 1 := frameOf_eq hhz (by omega) (by omega)
    have hticks : frameOf hz n - 1 = frames := by rw [hframe]; rfl
    have hmeets : s.Meets hz limit viewer (.stop n stop) :=
      .stop (by omega) (by omega) hstopped.calm hstopped.stop (hticks ▸ hundisturbed)
    refine ⟨.stop n stop, hmeets, ?_⟩
    simp only [Watch.frame, hcount, hburst]
    have hcompleted := hstopped.steps
    -- What stopped the run has its own last words, and a refused byte has none.
    cases stop with
    | breakpoint =>
      obtain rfl : n = after.steps := hcompleted.symm
      exact ⟨rfl, hstopped.endsAs hframe hprevious hshown' hfailure' hframes' rfl⟩
    | obstacle obstacle =>
      cases obstacle with
      | fault fault =>
        have hcompleted : after.steps = n - 1 := hcompleted
        refine ⟨rfl, hstopped.endsAs hframe hprevious hshown' hfailure' hframes' ?_⟩
        rw [hcompleted]
        rfl
      | source error => exact ⟨rfl, hstopped.endsAs_source hframe hprevious hshown' hframes'⟩

/-- A timed run that is given enough frames ends as the first of all events has it. -/
theorem OpensFrame.runFrames (h : w.OpensFrame s hz limit viewer frames budget) (hhz : 1 ≤ hz)
    (enough : frameOf hz limit ≤ frames + left ∨
      ∃ v ∈ viewer, ∃ patience ∈ v.patience, patience < frames + left) :
    ∃ ending, s.Meets hz limit viewer ending ∧
      (Watch.runFrames .plain viewer hz (some limit) left budget w).EndsAs s hz limit viewer
        ending := by
  -- By induction on the frames that are left: each of them opens the next one or ends the run.
  induction left generalizing w frames budget with
  | zero =>
    -- No frames are left, though neither the limit nor the viewer has ended the run.
    have hearly := h.early
    have hlt := h.goesOn
    obtain hlimit | ⟨v, hv, patience, hpatience, hover⟩ := enough
    · have := (frameOf_le_iff hhz).1 hlimit
      rw [Nat.add_zero] at this
      omega
    · have := h.undisturbed.lt_patience hv hpatience
      omega
  | succ left ih =>
    have hearly := h.early
    have hlt := h.goesOn
    unfold Watch.runFrames
    obtain ⟨closed, hclosed, hpaused, hframe⟩ | ⟨ending, hmeets, hcut, hends⟩ :=
      h.closes_or_stops hhz
    · have hsteps := hclosed.steps
      -- The frame was needed: the frames before it had not earned all steps.
      have hwithin : frames + 1 ≤ frameOf hz limit := by
        refine (lt_frameOf_iff hhz).2 ?_
        omega
      rw [hframe]
      cases hinterrupted : interrupts viewer (frames + 1) with
      | true =>
        refine ⟨.interruption (frames + 1), .interruption (Nat.succ_pos _) hwithin ?_ ?_
          hinterrupted, hclosed.endsAs_interruption hinterrupted (hpaused hinterrupted)⟩
        · exact hsteps ▸ hclosed.onTime.calm
        · exact h.undisturbed
      | false =>
        have hundisturbed := h.undisturbed.succ hinterrupted
        rw [if_neg Bool.false_ne_true]
        by_cases hmet : closed.steps = limit
        -- At the limit this is the last frame, and so the one in which the last step was earned.
        · have hframe : frameOf hz limit = frames + 1 :=
            Nat.le_antisymm ((frameOf_le_iff hhz).2 (by omega)) hwithin
          have hlimit : limitMet (some (limit : Int)) closed.steps = true := hmet ▸ limitMet_self _
          rw [if_pos hlimit]
          exact ⟨.limit, .limit (hmet ▸ hclosed.onTime.calm) (hframe ▸ hundisturbed),
            hclosed.endsAs_limit hmet hframe⟩
        -- Short of the limit and undisturbed, the next frame opens.
        · have hgo : closed.steps < limit := by omega
          rw [limitMet_of_lt hgo, if_neg Bool.false_ne_true]
          refine ih (hclosed.opensFrame hgo hundisturbed) ?_
          rw [show frames + 1 + left = frames + (left + 1) by omega]
          exact enough
    -- A step stopped the run in its frame, and no frame follows.
    · cases hframe : w.frame .plain viewer hz (some limit) budget with
      | mk budget' after =>
        rw [hframe] at hcut hends
        obtain rfl : budget' = none := hcut
        exact ⟨ending, hmeets, hends⟩

/-- A timed run opens its first frame with nothing done. -/
private theorem opensFrame_start (hlimit : 1 ≤ limit) :
    ({ session := s } : Watch ρ α).OpensFrame s hz limit viewer 0 0 where
  onTime := ⟨rfl, rfl, rfl, rfl, fun k hpos hk =>
    absurd (Nat.le_trans hpos hk) (Nat.not_succ_le_zero 0)⟩
  goesOn := hlimit
  budget := by rw [Nat.zero_mul]; rfl
  spent := Nat.zero_le _
  early := by rw [Nat.zero_mul]; exact Nat.succ_pos _
  undisturbed := fun k hpos hk => absurd (Nat.le_trans hpos hk) (Nat.not_succ_le_zero 0)
  shown := fun _ _ => rfl
  failure := rfl
  framesLeft := rfl

end Watch

namespace Session

variable {s : Session ρ} {hz limit : Nat} {viewer : Option (Viewer ρ α)}

/-- In a calm stretch no step stops the run. -/
private theorem Calm.ne_some {n k : Nat} {stop : Stop} (h : s.Calm hz n) (hpos : 1 ≤ k)
    (hk : k ≤ n) :
    s.stopOf hz k ≠ some stop := by
  rw [h k hpos hk]
  exact fun hsome => by cases hsome

/-- A run that comes to its limit is not stopped. -/
private theorem Meets.not_limit_stop {n : Nat} {what : Stop} (h : s.Meets hz limit viewer .limit)
    (h' : s.Meets hz limit viewer (.stop n what)) : False := by
  cases h with
  | limit calm undisturbed =>
    cases h' with
    | stop pos within _ stops _ => exact calm.ne_some pos within stops

/-- A run that comes to its limit is not interrupted before. -/
private theorem Meets.not_limit_interruption {j : Nat} (h : s.Meets hz limit viewer .limit)
    (h' : s.Meets hz limit viewer (.interruption j)) : False := by
  cases h with
  | limit calm undisturbed =>
    cases h' with
    | interruption pos within _ _ interrupted =>
      exact Bool.false_ne_true ((undisturbed j pos within).symm.trans interrupted)

/-- A run that is stopped in a step is not interrupted before, nor would it be later. -/
private theorem Meets.not_stop_interruption (hhz : 1 ≤ hz) {n j : Nat} {what : Stop}
    (h : s.Meets hz limit viewer (.stop n what))
    (h' : s.Meets hz limit viewer (.interruption j)) : False := by
  cases h with
  | stop hpos hwithin _ stops hundisturbed =>
    cases h' with
    | interruption pos _ calm _ interrupted =>
      by_cases hearlier : j ≤ frameOf hz n - 1
      · exact Bool.false_ne_true ((hundisturbed j pos hearlier).symm.trans interrupted)
      · -- The frame of the step is over by then.
        have hearned : 60 * n ≤ j * hz := (frameOf_le_iff hhz).1 (by omega)
        have hn : n ≤ j * hz / 60 := (Nat.le_div_iff_mul_le (by decide)).2 (by omega)
        exact calm.ne_some hpos (Nat.le_min.2 ⟨hwithin, hn⟩) stops

/-- What comes first is determined. -/
theorem Meets.unique (hhz : 1 ≤ hz) {e e' : Ending} (h : s.Meets hz limit viewer e)
    (h' : s.Meets hz limit viewer e') : e = e' := by
  -- Two endings of one kind agree in their number; of two kinds, each excludes the other.
  cases e with
  | limit =>
    cases e' with
    | limit => rfl
    | stop n what => exact (h.not_limit_stop h').elim
    | interruption j => exact (h.not_limit_interruption h').elim
  | stop n what =>
    cases e' with
    | limit => exact (h'.not_limit_stop h).elim
    | interruption j => exact (h.not_stop_interruption hhz h').elim
    | stop n' what' =>
      cases h with
      | stop hpos _ calm stops _ =>
        cases h' with
        | stop hpos' _ calm' stops' _ =>
          -- The earlier of the two steps would have stopped the run in the calm stretch of the
          -- other.
          obtain hlt | rfl | hgt := Nat.lt_trichotomy n n'
          · exact (calm'.ne_some hpos (by omega) stops).elim
          · rw [Option.some.inj (stops.symm.trans stops')]
          · exact (calm.ne_some hpos' (by omega) stops').elim
  | interruption j =>
    cases e' with
    | limit => exact (h'.not_limit_interruption h).elim
    | stop n what => exact (h'.not_stop_interruption hhz h).elim
    | interruption j' =>
      cases h with
      | interruption hpos _ _ hundisturbed hinterrupted =>
        cases h' with
        | interruption hpos' _ _ hundisturbed' hinterrupted' =>
          -- The earlier of the two showings would have been undisturbed and interrupted.
          obtain hlt | rfl | hgt := Nat.lt_trichotomy j j'
          · have := hundisturbed' j hpos (by omega)
            cases this.symm.trans hinterrupted
          · rfl
          · have := hundisturbed j' hpos' (by omega)
            cases this.symm.trans hinterrupted'

/-- A timed run from the beginning, in plain words. -/
private theorem runFrames_endsAs (s : Session ρ) (hhz : 1 ≤ hz) (hlimit : 1 ≤ limit)
    (viewer : Option (Viewer ρ α)) (horizon : Nat) :
    let frames := Watch.frameBound viewer hz (some limit) horizon
    ∃ ending, s.Meets hz limit viewer ending ∧
      (Watch.runFrames .plain viewer hz (some limit) frames 0 { session := s }).EndsAs s hz limit
        viewer ending := by
  have henough := Watch.frameBound_enough hhz viewer limit horizon
  rw [← Nat.zero_add (Watch.frameBound viewer hz (some limit) horizon)] at henough
  exact (Watch.opensFrame_start hlimit).runFrames hhz henough

/-- What the user has of a timed run in plain words. -/
theorem runAtSpeed_endsAs (running : s.machine.fault = none) (hhz : 1 ≤ hz) (hlimit : 1 ≤ limit)
    (viewer : Option (Viewer ρ α)) (horizon : Nat) :
    ∃ ending, s.Meets hz limit viewer ending ∧
      ∃ w : Watch ρ α, w.EndsAs s hz limit viewer ending ∧
        s.runAtSpeed hz (some limit) viewer horizon = w.reply := by
  obtain ⟨ending, hmeets, hends⟩ := s.runFrames_endsAs hhz hlimit viewer horizon
  exact ⟨ending, hmeets, _, hends, by rw [runAtSpeed, running]⟩

/-- In any words a timed run is the one in plain words, or words fail it on the way. -/
private theorem runAtSpeed_cases (running : s.machine.fault = none) (hhz : 1 ≤ hz)
    (hlimit : 1 ≤ limit) (viewer : Option (Viewer ρ α)) (horizon : Nat) (write : Notice.Writer) :
    ∃ ending, s.Meets hz limit viewer ending ∧
      ∃ w : Watch ρ α, w.EndsAs s hz limit viewer ending ∧
        (s.runAtSpeed hz (some limit) viewer horizon write = w.reply ∨
          (s.runAtSpeed hz (some limit) viewer horizon write).unfinished = false ∧
            ∃ steps ≤ ending.completed hz limit, write.Rejects hz steps) := by
  obtain ⟨ending, hmeets, hends⟩ := s.runFrames_endsAs hhz hlimit viewer horizon
  refine ⟨ending, hmeets, _, hends, ?_⟩
  rw [runAtSpeed, running, ← hends.steps]
  exact (Watch.runFrames_eq_plain_or write viewer hz (some limit) _ 0 { session := s }).imp_left
    (congrArg Watch.reply)

/-- The steps of a run are earned by the frames that it goes through. -/
private theorem Meets.due (hhz : 1 ≤ hz) {e : Ending} (h : s.Meets hz limit viewer e) :
    frameOf hz (e.steps hz limit) ≤ e.ticks hz limit + 1 := by
  -- Each ending says how many frames there were, and these have earned the steps.
  cases h with
  | limit => exact Nat.le_succ _
  | @stop n =>
    show frameOf hz n ≤ frameOf hz n - 1 + 1
    omega
  | @interruption j =>
    show frameOf hz (min limit (j * hz / 60)) ≤ j + 1
    refine (frameOf_le_iff hhz).2 ?_
    have hnext : (j + 1) * hz = j * hz + hz := Nat.succ_mul j hz
    omega

/-- The frames before the last one of a run have not earned all its steps. -/
private theorem Meets.opens (hhz : 1 ≤ hz) (hlimit : 1 ≤ limit) {e : Ending}
    (h : s.Meets hz limit viewer e) :
    1 ≤ e.frame hz limit ∧ e.frame hz limit - 1 ≤ e.ticks hz limit ∧
      (e.frame hz limit - 1) * hz / 60 ≤ e.steps hz limit := by
  -- In each case the frame before the last one had not earned the last step.
  cases h with
  | limit =>
    have hpos := frameOf_pos hhz hlimit
    have hearly := (lt_frameOf_iff (n := limit) hhz).1 (Nat.sub_lt hpos Nat.one_pos)
    refine ⟨hpos, Nat.sub_le _ _, ?_⟩
    show (frameOf hz limit - 1) * hz / 60 ≤ limit
    omega
  | @stop n _ hn =>
    have hpos := frameOf_pos hhz hn
    have hearly := (lt_frameOf_iff (n := n) hhz).1 (Nat.sub_lt hpos Nat.one_pos)
    refine ⟨hpos, Nat.le_refl _, ?_⟩
    show (frameOf hz n - 1) * hz / 60 ≤ n
    omega
  | @interruption j hpos hwithin =>
    have hearly : (j - 1) * hz < 60 * limit := (lt_frameOf_iff hhz).1 (by omega)
    have hless : (j - 1) * hz ≤ j * hz := Nat.mul_le_mul_right hz (Nat.sub_le j 1)
    refine ⟨hpos, Nat.sub_le _ _, ?_⟩
    show (j - 1) * hz / 60 ≤ min limit (j * hz / 60)
    omega

/-- A timed run ends, and on schedule, if its speed and the number of the steps that it completes
    can be written. -/
theorem runAtSpeed_schedule (running : s.machine.fault = none) (hhz : 1 ≤ hz) (hlimit : 1 ≤ limit)
    (written : hz < 10 ^ Text.decimalLimit) (viewer : Option (Viewer ρ α)) (horizon : Nat) :
    let r := s.runAtSpeed hz (some limit) viewer horizon .limited
    r.unfinished = false ∧
    (∃! ending, s.Meets hz limit viewer ending) ∧
    ∀ ending, s.Meets hz limit viewer ending →
      ending.completed hz limit < 10 ^ Text.decimalLimit →
      ∃ beats opened : List Beat, Beat.OnSchedule hz beats ∧
        beats.count .step = ending.steps hz limit ∧ beats.count .tick = ending.ticks hz limit ∧
        (opened <+: beats ∧ opened.count .tick + 1 = ending.frame hz limit ∧
          (opened = [] ∨ opened.getLast? = some .tick)) ∧
        r.session =
          { s with
            machine := s.machine.play s.held beats
            previous := (s.machine.play s.held opened).registers
            notice := r.session.notice } ∧
        r.session.machine.cycles = s.machine.cycles + ending.completed hz limit ∧
        (∀ notice ∈ ending.notice? hz limit r.session.machine.pc, r.session.notice =
          if interrupts viewer (ending.showings hz limit) then
            .paused (ending.completed hz limit) hz
          else notice) ∧
        (∀ v ∈ viewer, r.shown.size = ending.showings hz limit) ∧
        r.failure = ending.failure := by
  intro r
  obtain ⟨ending, hmeets, w, hends, hlimited⟩ :=
    runAtSpeed_cases running hhz hlimit viewer horizon .limited
  have hfinished : r.unfinished = false := by
    obtain hrun | ⟨hfinished, -⟩ := hlimited
    · exact (congrArg Reply.unfinished hrun).trans hends.finished
    · exact hfinished
  refine ⟨hfinished, ⟨ending, hmeets, fun other hother => hother.unique hhz hmeets⟩,
    fun other hother hwritten => ?_⟩
  obtain rfl : other = ending := hother.unique hhz hmeets
  have hrun : r = w.reply := by
    obtain hrun | ⟨-, steps, hle, hrejects⟩ := hlimited
    · exact hrun
    -- The words that could fail it are of numbers that can be written.
    · exact absurd hrejects
        (Notice.Writer.not_rejects_limited written (Nat.lt_of_le_of_lt hle hwritten))
  have hsession : r.session = w.session := congrArg Reply.session hrun
  have hshown : r.shown = w.shown := congrArg Reply.shown hrun
  have hfailure : r.failure = w.failure := congrArg Reply.failure hrun
  -- Breakpoints, keys and view are those of the beginning, as for every timed run.
  obtain ⟨hsettings, hframes⟩ := s.runAtSpeed_settings hz (some limit) viewer horizon .limited
  obtain ⟨hschedule, hsteps, hticks⟩ := Beat.timetable_spec hhz (hmeets.due hhz)
  obtain ⟨hpos, hframe, hearned⟩ := hmeets.opens hhz hlimit
  -- The last frame is opened by the ticks of the frames before it and the steps that these earn.
  obtain ⟨before, hbefore⟩ := Nat.exists_eq_add_of_le' hpos
  have hprevious := hends.previous
  rw [hbefore, Nat.add_sub_cancel] at hframe hearned hprevious
  have hdue : frameOf hz (before * hz / 60) ≤ before := (frameOf_le_iff hhz).2 (by omega)
  have hnext : before < frameOf hz (before * hz / 60 + 1) := (lt_frameOf_iff hhz).2 (by omega)
  have hcount := (Beat.timetable_spec hhz (Nat.le_succ_of_le hdue)).2.2
  refine ⟨_, Beat.timetable hz (before * hz / 60) before, hschedule, hsteps, hticks,
    ⟨Beat.timetable_prefix hhz hearned hframe (Nat.le_succ_of_le hdue) hnext, ?_, ?_⟩, ?_, ?_, ?_,
    ?_, ?_⟩
  · rw [hcount, hbefore]
  -- Before the first frame nothing was played; before any other, the last beat was a tick.
  · cases before with
    | zero =>
      left
      rw [Nat.zero_mul]
      rfl
    | succ earlier => exact .inr (Beat.timetable_ends hdue (Nat.succ_pos earlier))
  · have hmachine := (congrArg Session.machine hsession).trans hends.machine
    have hregisters := (congrArg Session.previous hsession).trans hprevious
    have hsame : r.session =
        { s with
          machine := r.session.machine
          previous := r.session.previous
          notice := r.session.notice } := hsettings.eq hframes
    rw [hmachine, hregisters] at hsame
    exact hsame
  · rw [hsession]
    exact hends.cycles
  · rw [hsession]
    exact hends.notice
  · rw [hshown]
    exact hends.shown
  · rw [hfailure]
    exact hends.failure

/-- At 25 steps a second the third step, a return without a call, is taken in the eighth frame: the
    run ends there behind two completed steps and seven ticks, and the viewer sees the last words
    before being out of patience. -/
theorem runAtSpeed_schedule_underflow :
    let s : Session Replay :=
      { machine := (Machine.fresh (Replay.ofInts [7])).callAll
          [.load [0x60, 0x05, 0xF0, 0x15, 0x00, 0xEE]]
        held := .holding [3] }
    let viewer : Option (Viewer Replay Unit) := some { picture := fun _ => (), patience := some 9 }
    let ending : Ending := .stop 3 (.obstacle (.fault (.stackUnderflow 0x204)))
    s.machine.fault = none ∧ s.Meets 25 10 viewer ending ∧
      ∃ r, r = s.runAtSpeed (25 : Nat) (some (10 : Nat)) viewer 0 .limited ∧
        r.unfinished = false ∧
        (∃ beats : List Beat, Beat.OnSchedule 25 beats ∧ beats.count .step = 3 ∧
          beats.count .tick = 7 ∧ r.session.machine = s.machine.play s.held beats) ∧
        r.session.machine.cycles = s.machine.cycles + 2 ∧ r.shown.size = 8 ∧
        r.session.notice = .timedFatal 2 (.stackUnderflow 0x204) := by
  intro s viewer ending
  have running : s.machine.fault = none := by decide +kernel
  have hmeets : s.Meets 25 10 viewer ending := by
    refine .stop (by decide) (by decide) (fun k hpos hk => ?_) (by decide +kernel)
      fun k hpos hk => ?_
    · obtain rfl | rfl : k = 1 ∨ k = 2 := by omega
      · decide +kernel
      · decide +kernel
    · have hlt : k < 9 := Nat.lt_of_le_of_lt hk (by decide)
      exact decide_eq_false (by omega)
  obtain ⟨hfinished, -, hends⟩ := runAtSpeed_schedule running (show 1 ≤ 25 by decide)
    (show 1 ≤ 10 by decide) (show 25 < 10 ^ Text.decimalLimit by decide +kernel) viewer 0
  obtain ⟨beats, _, hschedule, hsteps, hticks, -, hsession, hcycles, hnotice, hshown, -⟩ :=
    hends ending hmeets (show 2 < 10 ^ Text.decimalLimit by decide +kernel)
  exact ⟨running, hmeets, _, rfl, hfinished,
    ⟨beats, hschedule, hsteps, hticks, congrArg Session.machine hsession⟩, hcycles,
    hshown _ rfl, hnotice _ rfl⟩

/-- What takes a timed run off the schedule, though it meets neither fault nor breakpoint nor
    interruption. Without a viewer nothing is shown. A speed of 4301 digits is not written, which
    breaks the run off behind its first tick. And so does a refused byte in the step that draws. -/
theorem runAtSpeed_off_schedule :
    let s : Session Replay :=
      { machine := (Machine.fresh (Replay.ofInts [7])).callAll [.load [0x12, 0x00]] }
    let refused : Session Replay :=
      { machine := (Machine.fresh (Replay.ofInts [])).callAll [.load [0xC0, 0xFF]] }
    let viewer : Option (Viewer Replay Unit) := some { picture := fun _ => () }
    let long : Nat := 10 ^ Text.decimalLimit
    s.machine.fault = none ∧ refused.machine.fault = none ∧
      (s.Meets 60 1 (none : Option (Viewer Replay Unit)) .limit ∧ frameOf 60 1 + 1 = 2 ∧
        (s.runAtSpeed (60 : Nat) (some (1 : Nat)) (none : Option (Viewer Replay Unit)) 0
          .limited).shown.size = 0) ∧
      (s.Meets long 1 viewer .limit ∧ frameOf long 1 + 1 = 2 ∧
        ∃ r, r = s.runAtSpeed long (some (1 : Nat)) viewer 0 .limited ∧
          r.failure = some (.number .tooManyDigits) ∧ r.shown.size = 0) ∧
      ∃ r, r = refused.runAtSpeed (60 : Nat) (some (1 : Nat)) viewer 0 .limited ∧
        r.failure = some (.source .emptyList) ∧ r.session.machine.cycles = 0 := by
  intro s refused viewer long
  have hcalm {hz : Nat} (h : s.stopOf hz 1 = none) : s.Calm hz 1 := fun k hpos hk =>
    (Nat.le_antisymm hk hpos) ▸ h
  refine ⟨by decide +kernel, by decide +kernel,
    ⟨.limit (hcalm (by decide +kernel)) fun k _ _ => rfl, by decide, by decide +kernel⟩,
    ⟨.limit (hcalm (by decide +kernel)) fun k _ _ => rfl, by decide +kernel, _, rfl,
      by decide +kernel⟩,
    _, rfl, by decide +kernel⟩

end Session

end Debugger

end Chip8
