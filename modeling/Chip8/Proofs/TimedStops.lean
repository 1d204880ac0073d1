import Chip8.Proofs.Channels
import Chip8.Proofs.Schedule
import Mathlib.Algebra.BigOperators.Group.List.Basic
import Mathlib.Algebra.GroupWithZero.Nat

/-!
# Timed runs and breakpoints

A timed run places its ticks by the steps it has taken: so many frames go by before the next step
is earned, and each of them ends with a tick. A breakpoint takes the run out of its frame before the
tick, and a later run begins a frame of its own. So a stop costs the timers up to one tick. It costs
nothing else as long as the program does not read the delay: the same instructions are executed, and
what they leave differs in the timers only.

## Key results

- `Machine.paced`: the machine after some steps of a timed run, with the ticks between them
- `Machine.play_timetable`: the schedule of a timed run keeps the pace
- `Session.runAtSpeed_ends`: how a timed run ends
- `Session.runThrough_without_timers`: timed runs that are taken up again after each breakpoint
- `Session.runThrough_loses_ticks`: a program that reads the delay tells the difference
-/

namespace Chip8

namespace Machine

variable {ρ : Type} {c : Channel} {m m' : Machine ρ} {n k : Nat}

/-! ## Ticks -/

/-- Ticks change nothing but the timers. -/
private theorem iterate_tick_without (m : Machine ρ) (n : Nat) :
    (tick^[n] m).without .timers = m.without .timers := by
  induction n with
  | zero => rfl
  | succ n ih => rw [Function.iterate_succ_apply', tick_without, ih]

/-- A tick does not care which keys are held. -/
private theorem hold_tick (m : Machine ρ) (keys : KeyStates) :
    m.tick.hold keys = (m.hold keys).tick := by
  have hwait : (m.hold keys).awaitingKey = m.awaitingKey := rfl
  unfold tick
  rw [hwait]
  split
  · rfl
  · rfl

/-! ## The pace of a timed run -/

/-- How many ticks come before the last of `n` steps: as many as frames go by until it is earned. -/
def ticksBefore (hz n : Nat) : Nat :=
  (60 * n - 1) / hz

/-- No tick comes before the first step is due. -/
private theorem ticksBefore_zero (hz : Nat) : ticksBefore hz 0 = 0 :=
  Nat.zero_div hz

/-- The ticks that come between `n` steps and the next one. -/
def catchUp (hz n : Nat) (m : Machine ρ) : Machine ρ :=
  tick^[ticksBefore hz (n + 1) - ticksBefore hz n] m

variable [ByteSource ρ]

/-- The machine after `n` steps of a timed run, each behind the ticks that come before it. -/
def paced (hz : Nat) (m : Machine ρ) : Nat → Machine ρ
  | 0 => m
  | n + 1 => ((m.paced hz n).catchUp hz n).step.machine

/-- The next steps meet no obstacle at the pace of a timed run. -/
def CompletesPaced (hz : Nat) (m : Machine ρ) (n : Nat) : Prop :=
  ∀ k < n, ((m.paced hz k).catchUp hz k).step.obstacle = none

/-- Steps that complete leave the machine running. -/
theorem CompletesPaced.fault {hz : Nat} (h : m.CompletesPaced hz n) (hk : k < n) :
    (m.paced hz (k + 1)).fault = none :=
  (step_of_completed (h k hk)).2.1

/-- At whatever pace, steps that are blind to the timers complete and do the same. -/
theorem Blind.paced (hb : m.Blind .timers n) (hz : Nat) :
    m.CompletesPaced hz n ∧ (m.paced hz n).without .timers = (m.after n).without .timers := by
  -- Induction on the steps: the ticks in between are lost on a machine without timers.
  induction n with
  | zero => exact ⟨fun k hk => absurd hk (Nat.not_lt_zero k), rfl⟩
  | succ n ih =>
    obtain ⟨hcompletes, halike⟩ := ih hb.take
    have hbefore : (m.after n).without .timers =
        ((m.paced hz n).catchUp hz n).without .timers :=
      halike.symm.trans (iterate_tick_without _ _).symm
    have hunread := hb.unread n (Nat.lt_succ_self n)
    constructor
    · intro k hk
      obtain hlt | rfl := Nat.lt_succ_iff_lt_or_eq.1 hk
      · exact hcompletes k hlt
      · rw [← step_obstacle_without hbefore hunread]
        exact hb.completes k hk
    · rw [after_succ']
      exact (congrArg Step.machine (step_without hbefore fun _ => hunread)).symm

/-- A stop between some steps and the following ones costs at most one tick. -/
private theorem ticksBefore_add {hz : Nat} (hhz : 1 ≤ hz) (hk : 0 < k) (hn : 0 < n) :
    ticksBefore hz k + ticksBefore hz n ≤ ticksBefore hz (k + n) ∧
      ticksBefore hz (k + n) ≤ ticksBefore hz k + ticksBefore hz n + 1 := by
  -- The last of `n` steps is in the frame behind its ticks, and the frame has earned it.
  have hlast : ∀ {n}, 0 < n → 60 * n ≤ (ticksBefore hz n + 1) * hz := by
    intro n hn
    have hlt : 60 * n - 1 < hz * (ticksBefore hz n + 1) := Nat.lt_mul_div_succ _ hhz
    rw [Nat.mul_comm hz] at hlt
    omega
  constructor
  · calc ticksBefore hz k + ticksBefore hz n
        ≤ (60 * k - 1 + (60 * n - 1)) / hz := Nat.div_add_div_le_add_div
      _ ≤ ticksBefore hz (k + n) := Nat.div_le_div_right (by omega)
  · have hsum : 60 * (k + n) ≤ (ticksBefore hz k + ticksBefore hz n + 2) * hz := by
      calc 60 * (k + n) = 60 * k + 60 * n := Nat.mul_add ..
        _ ≤ (ticksBefore hz k + 1) * hz + (ticksBefore hz n + 1) * hz :=
          Nat.add_le_add (hlast hk) (hlast hn)
        _ = (ticksBefore hz k + ticksBefore hz n + 2) * hz := by
          rw [← Nat.add_mul]
          congr 1
          omega
    have hlt : ticksBefore hz (k + n) < ticksBefore hz k + ticksBefore hz n + 2 :=
      (Nat.div_lt_iff_lt_mul hhz).2 (by omega)
    omega

/-- The machine after several timed runs one after the other, each of so many steps. -/
def pacedAll (hz : Nat) (m : Machine ρ) (runs : List Nat) : Machine ρ :=
  runs.foldl (fun m n => m.paced hz n) m

/-- Steps that are blind to the timers do the same in however many runs they are taken. -/
theorem Blind.pacedAll {runs : List Nat} (hb : m.Blind .timers runs.sum) (hz : Nat) :
    (m.pacedAll hz runs).without .timers = (m.after runs.sum).without .timers := by
  -- Induction on the runs; the first leaves a machine for which the others are blind as well.
  induction runs generalizing m with
  | nil => rfl
  | cons n rest ih =>
    rw [List.sum_cons] at hb ⊢
    have hfirst := (hb.take.paced hz).2
    have hdrop := hb.drop.of_without_eq hfirst.symm
    rw [after_add]
    exact (ih hdrop).trans (hdrop.after_without hfirst)

/-- Every further run costs at most one tick. -/
private theorem ticksBefore_sum {hz : Nat} {runs : List Nat} (hhz : 1 ≤ hz) (hruns : runs ≠ [])
    (hpos : ∀ n ∈ runs, 0 < n) :
    (runs.map (ticksBefore hz)).sum ≤ ticksBefore hz runs.sum ∧
      ticksBefore hz runs.sum < (runs.map (ticksBefore hz)).sum + runs.length := by
  -- Induction on the runs; each one behind the first may lose the tick of a frame that is
  -- shared.
  induction runs with
  | nil => exact absurd rfl hruns
  | cons n rest ih =>
    obtain ⟨hn, hrest⟩ := List.forall_mem_cons.1 hpos
    rw [List.map_cons, List.sum_cons, List.sum_cons, List.length_cons]
    by_cases hnil : rest = []
    · subst hnil
      simp only [List.map_nil, List.sum_nil, List.length_nil, Nat.add_zero, Nat.zero_add,
        Nat.le_refl, Nat.lt_succ_self, and_self]
    · obtain ⟨hle, hlt⟩ := ih hnil hrest
      have hsum : 0 < rest.sum :=
        Nat.lt_of_lt_of_le (List.length_pos_of_ne_nil hnil) (rest.length_le_sum_of_one_le hrest)
      obtain ⟨hlo, hhi⟩ := ticksBefore_add hhz hn hsum
      omega

end Machine

namespace Machine

variable {ρ : Type} [ByteSource ρ] {m : Machine ρ} {hz n : Nat} {keys : KeyStates}

/-! ## The pace and the schedule -/

/-- All frames before that of a step have their tick before it. -/
private theorem ticksBefore_eq_frameOf (hhz : 1 ≤ hz) (n : Nat) :
    ticksBefore hz n = frameOf hz n - 1 := by
  cases n with
  | zero => rw [ticksBefore_zero, frameOf_zero hhz]
  | succ n =>
    have hmore : 60 * (n + 1) + hz - 1 = 60 * (n + 1) - 1 + hz := by omega
    rw [ticksBefore, frameOf, hmore, Nat.add_div_right _ hhz]
    rfl

/-- On schedule a machine keeps the pace of the machine that has been told of the held keys, and
    from the first step on it has been told as well. -/
theorem play_timetable {ticks : Nat} (hhz : 1 ≤ hz) (hdue : frameOf hz n ≤ ticks + 1) :
    (m.play keys (Beat.timetable hz n ticks)).hold keys =
        tick^[ticks - ticksBefore hz n] ((m.hold keys).paced hz n) ∧
      (1 ≤ n → (m.play keys (Beat.timetable hz n ticks)).keypad.states = keys) := by
  -- Along the timetable a tick is a tick, and a step comes behind the ticks that are due.
  refine (Beat.timetable_induction (P := fun beats n ticks => ticksBefore hz n ≤ ticks ∧
    (m.play keys beats).hold keys = tick^[ticks - ticksBefore hz n] ((m.hold keys).paced hz n) ∧
      (1 ≤ n → (m.play keys beats).keypad.states = keys)) hhz ?_ ?_ ?_ hdue).2
  · rw [ticksBefore_zero]
    exact ⟨Nat.le_refl 0, rfl, fun h => absurd h (Nat.not_succ_le_zero 0)⟩
  · rintro beats n ticks ⟨hle, hpace, htold⟩
    rw [play_append_singleton, beat, hold_tick, hpace, Nat.succ_sub hle,
      Function.iterate_succ_apply', tick_keypad]
    exact ⟨Nat.le_succ_of_le hle, rfl, htold⟩
  · rintro beats n ticks hearned ⟨hle, hpace, -⟩
    have hnow : ticksBefore hz (n + 1) = ticks := by
      rw [ticksBefore_eq_frameOf hhz, hearned, Nat.add_sub_cancel]
    have hkeys : ((m.play keys beats).hold keys).step.machine.keypad.states = keys := step_states _
    rw [play_append_singleton, beat, hold_eq_self hkeys, hnow, Nat.sub_self]
    refine ⟨Nat.le_refl ticks, ?_, fun _ => hkeys⟩
    rw [hpace, ← hnow]
    rfl

end Machine

namespace Debugger

variable {ρ α : Type}

variable [ByteSource ρ]

namespace Session

variable {s : Session ρ} {hz n : Nat}

/-- The machine on schedule, from the first step on. -/
private theorem scheduled_eq_paced (hhz : 1 ≤ hz) (hn : 1 ≤ n) (more : Nat) :
    s.scheduled hz n (frameOf hz n - 1 + more) =
      Machine.tick^[more] ((s.machine.hold s.held).paced hz n) := by
  have hplay : (s.scheduled hz n (frameOf hz n - 1 + more)).hold s.held = _ ∧ _ :=
    Machine.play_timetable hhz (by omega)
  have hkeys := hplay.2 hn
  rw [Machine.ticksBefore_eq_frameOf hhz, Nat.add_sub_cancel_left] at hplay
  rw [← hplay.1]
  exact (Machine.hold_eq_self hkeys).symm

/-- The steps on schedule are those of the pace. -/
private theorem stepOf_eq_paced (hhz : 1 ≤ hz) (n : Nat) :
    s.stepOf hz (n + 1) = (((s.machine.hold s.held).paced hz n).catchUp hz n).step := by
  have hpos : 1 ≤ frameOf hz (n + 1) := frameOf_pos hhz (Nat.succ_pos n)
  have hmono : frameOf hz n ≤ frameOf hz (n + 1) := frameOf_mono hhz (Nat.le_succ n)
  have hplay : (s.scheduled hz n (frameOf hz (n + 1) - 1)).hold s.held = _ ∧ _ :=
    Machine.play_timetable hhz (by omega)
  rw [Machine.catchUp, Machine.ticksBefore_eq_frameOf hhz (n + 1)]
  exact congrArg Machine.step hplay.1

end Session

namespace Watch

/-- A timed run at `hz` that took `n` of at most `limit` steps of `m` and left the session `t` of
    `s`: it came to a breakpoint, before the tick of its frame, or to its limit, behind the tick. -/
structure Ends (s t : Session ρ) (hz : Nat) (m : Machine ρ) (limit n : Nat) : Prop where
  pos : 0 < n
  le : n ≤ limit
  held : t.held = s.held
  breakpoints : t.breakpoints = s.breakpoints
  keys : t.machine.keypad.states = s.held
  ending :
    t.notice = .timedBreakpoint t.machine.pc n hz ∧ t.machine.pc ∈ s.breakpoints ∧
      t.machine = m.paced hz n ∨
    t.notice = .timedLimit n ∧ n = limit ∧ t.machine = (m.paced hz n).tick

end Watch

namespace Session

variable {s : Session ρ} {viewer : Option (Viewer ρ α)} {hz limit n : Nat}

/-- A timed run from the beginning. -/
theorem runAtSpeed_ends (running : s.machine.fault = none) (hhz : 1 ≤ hz) (hlimit : 1 ≤ limit)
    (hp : Watch.Patient viewer) (hc : (s.machine.hold s.held).CompletesPaced hz limit)
    (horizon : Nat) :
    ∃ n, Watch.Ends s (s.runAtSpeed hz (some limit) viewer horizon).session hz
      (s.machine.hold s.held) limit n := by
  obtain ⟨ending, hmeets, w, hends, hrun⟩ := runAtSpeed_endsAs running hhz hlimit viewer horizon
  obtain ⟨hsettings, -⟩ := s.runAtSpeed_settings hz (some limit) viewer horizon
  rw [hrun] at hsettings ⊢
  -- What brings a timed run to its end is the limit, a breakpoint or the viewer; the last does
  -- not apply here.
  cases hmeets with
  | limit =>
    have hmachine : w.session.machine = ((s.machine.hold s.held).paced hz limit).tick := by
      have hticks : frameOf hz limit = frameOf hz limit - 1 + 1 :=
        (Nat.sub_add_cancel (frameOf_pos hhz hlimit)).symm
      calc w.session.machine = s.scheduled hz limit (frameOf hz limit) := hends.machine
        _ = s.scheduled hz limit (frameOf hz limit - 1 + 1) := by rw [← hticks]
        _ = ((s.machine.hold s.held).paced hz limit).tick := scheduled_eq_paced hhz hlimit 1
    have hkeys : w.session.machine.keypad.states = s.held := by
      rw [hends.machine]
      exact (Machine.play_timetable hhz (Nat.le_succ _)).2 hlimit
    have hnotice := hends.notice _ rfl
    rw [hp.interrupts, if_neg Bool.false_ne_true] at hnotice
    exact ⟨limit,
      { pos := hlimit
        le := Nat.le_refl limit
        held := hsettings.held
        breakpoints := hsettings.breakpoints
        keys := hkeys
        ending := .inr ⟨hnotice, rfl, hmachine⟩ }⟩
  | @stop n what hpos within calm stops undisturbed =>
    obtain ⟨k, rfl⟩ := Nat.exists_eq_add_of_le' hpos
    have hmachine : w.session.machine = (s.machine.hold s.held).paced hz (k + 1) := by
      rw [hends.machine]
      exact scheduled_eq_paced hhz hpos 0
    have hkeys : w.session.machine.keypad.states = s.held := by
      rw [hends.machine]
      exact (Machine.play_timetable hhz (Nat.le_add_of_sub_le (Nat.le_refl _))).2 hpos
    -- No step meets an obstacle, so that it is a breakpoint that stopped the run.
    rw [stopOf, stepOf_eq_paced hhz, hc k (by omega), Option.map_none, Option.none_or] at stops
    split at stops
    · next hmem =>
      cases stops
      have hnotice := hends.notice _ rfl
      rw [hp.interrupts, if_neg Bool.false_ne_true] at hnotice
      exact ⟨k + 1,
        { pos := hpos
          le := within
          held := hsettings.held
          breakpoints := hsettings.breakpoints
          keys := hkeys
          ending := .inl ⟨hnotice, hmachine ▸ of_decide_eq_true hmem, hmachine⟩ }⟩
    · cases stops
  | interruption pos within calm undisturbed interrupted =>
    exact absurd ((hp.interrupts _).symm.trans interrupted) Bool.false_ne_true

/-- Timed runs until so many steps have been taken, each of which goes on after a stop at a
    breakpoint with the steps that are still missing. -/
def runThrough (hz : Nat) (viewer : Option (Viewer ρ α)) (horizon : Nat) (s : Session ρ)
    (missing : Nat) : Session ρ :=
  let run := (s.runAtSpeed hz (some missing) viewer horizon).session
  match run.notice with
  | .timedBreakpoint _ steps _ =>
    -- A run that comes to a breakpoint has taken a step, so that less is missing than before.
    if 0 < steps ∧ steps < missing then runThrough hz viewer horizon run (missing - steps) else run
  | _ => run
termination_by missing

variable {m : Nat}

/-- What is left to do after a timed run. -/
private theorem runThrough_of_ends {start : Machine ρ} {horizon : Nat}
    (h : Watch.Ends s (s.runAtSpeed hz (some m) viewer horizon).session hz start m n) :
    s.runThrough hz viewer horizon m =
      if n < m then
        runThrough hz viewer horizon (s.runAtSpeed hz (some m) viewer horizon).session (m - n)
      else (s.runAtSpeed hz (some m) viewer horizon).session := by
  rw [runThrough]
  -- The notice tells the two endings apart.
  obtain ⟨hnotice, -, -⟩ | ⟨hnotice, rfl, -⟩ := h.ending
  · simp only [hnotice, h.pos, true_and]
  · simp only [hnotice, Nat.lt_irrefl, if_false]

/-- After a run that did not come to its limit, the session is ready for the next one. -/
private theorem ready_of_ends {t : Session ρ} {start : Machine ρ} (h : Watch.Ends s t hz start m n)
    (hc : start.CompletesPaced hz m) (hlt : n < m) :
    t.machine = start.paced hz n ∧ t.machine.hold t.held = t.machine ∧ t.machine.fault = none := by
  -- A run that is cut short by a breakpoint has taken a step, and that step completed.
  obtain ⟨-, -, hmachine⟩ | ⟨-, rfl, -⟩ := h.ending
  · refine ⟨hmachine, Machine.hold_eq_self (h.keys.trans h.held.symm), ?_⟩
    obtain ⟨k, rfl⟩ := Nat.exists_eq_add_one.2 h.pos
    rw [hmachine]
    exact hc.fault (by omega)
  · exact absurd hlt (Nat.lt_irrefl n)

/-- Timed runs up to a number of steps that are blind to the timers take these steps, each run at
    its own pace; only the last one can end with a tick. -/
private theorem runThrough_paced (running : s.machine.fault = none) (hhz : 1 ≤ hz) (hm : 1 ≤ m)
    (hp : Watch.Patient viewer) (hb : (s.machine.hold s.held).Blind .timers m) (horizon : Nat) :
    ∃ runs : List Nat, runs.sum = m ∧ (∀ n ∈ runs, 0 < n) ∧
      ((s.runThrough hz viewer horizon m).machine = (s.machine.hold s.held).pacedAll hz runs ∨
        (s.runThrough hz viewer horizon m).machine =
          ((s.machine.hold s.held).pacedAll hz runs).tick) := by
  -- Every run takes at least one of the missing steps.
  induction m using Nat.strongRecOn generalizing s with
  | ind m ih =>
    have hc := (hb.paced hz).1
    obtain ⟨n, hends⟩ := s.runAtSpeed_ends running hhz hm hp hc horizon
    rw [runThrough_of_ends hends]
    have hpos := hends.pos
    by_cases hlt : n < m
    · obtain ⟨hmachine, hhold, hfault⟩ := ready_of_ends hends hc hlt
      obtain ⟨missing, rfl⟩ := Nat.exists_eq_add_of_le hends.le
      rw [if_pos hlt, Nat.add_sub_cancel_left]
      generalize (s.runAtSpeed hz (some (n + missing : Nat)) viewer horizon).session = run at *
      have hblind : (run.machine.hold run.held).Blind .timers missing := by
        rw [hhold, hmachine]
        exact hb.drop.of_without_eq (hb.take.paced hz).2.symm
      obtain ⟨rest, hsum, hrest, hrun⟩ := ih missing (by omega) hfault (by omega) hblind
      rw [hhold, hmachine] at hrun
      exact ⟨n :: rest, by rw [List.sum_cons, hsum], List.forall_mem_cons.2 ⟨hpos, hrest⟩, hrun⟩
    · obtain rfl : n = m := Nat.le_antisymm hends.le (Nat.le_of_not_lt hlt)
      refine ⟨[n], List.sum_singleton, List.forall_mem_singleton.2 hpos, ?_⟩
      rw [if_neg hlt]
      obtain ⟨-, -, hmachine⟩ | ⟨-, -, hmachine⟩ := hends.ending
      · exact .inl hmachine
      · exact .inr hmachine

/-- Timed runs up to `m` steps, stopped by whatever breakpoints, and one timed run of `m` steps
    without breakpoints leave machines that differ in the timers only, if the program does not read
    the delay in these steps. Every stop costs at most one of the ticks that the one run has. -/
theorem runThrough_without_timers (running : s.machine.fault = none) (hhz : 1 ≤ hz) (hm : 1 ≤ m)
    (patient : Watch.Patient viewer) (blind : (s.machine.hold s.held).Blind .timers m)
    (horizon : Nat) :
    let start := s.machine.hold s.held
    let stopped := (s.runThrough hz viewer horizon m).machine
    let straight :=
      ({ s with breakpoints := [] }.runAtSpeed hz (some m) viewer horizon).session.machine
    stopped.without .timers = straight.without .timers ∧
      straight = (start.paced hz m).tick ∧
      ∃ runs : List Nat, runs.sum = m ∧ (∀ n ∈ runs, 0 < n) ∧
        (stopped = start.pacedAll hz runs ∨ stopped = (start.pacedAll hz runs).tick) ∧
        let ticks := (runs.map (Machine.ticksBefore hz)).sum
        ticks ≤ Machine.ticksBefore hz m ∧ Machine.ticksBefore hz m < ticks + runs.length := by
  intro start stopped straight
  obtain ⟨hcompletes, hpaced⟩ := blind.paced hz
  -- The runs and their paces are known; it is left to compare them with the one run.
  obtain ⟨runs, hsum, hpos, hstopped⟩ := runThrough_paced running hhz hm patient blind horizon
  have hstraight : straight = (start.paced hz m).tick := by
    obtain ⟨n, hends⟩ := runAtSpeed_ends (s := { s with breakpoints := [] }) running hhz hm
      patient hcompletes horizon
    -- Without breakpoints there is nothing but the limit to end the run.
    obtain ⟨-, hmem, -⟩ | ⟨-, rfl, hmachine⟩ := hends.ending
    · exact absurd hmem List.not_mem_nil
    · exact hmachine
  have hall : (start.pacedAll hz runs).without .timers = (start.after m).without .timers := by
    rw [← hsum] at blind ⊢
    exact blind.pacedAll hz
  have halike : stopped.without .timers = (start.after m).without .timers := by
    obtain h | h := hstopped
    · exact (congrArg (Machine.without · .timers) h).trans hall
    · exact (congrArg (Machine.without · .timers) h).trans ((Machine.tick_without _).trans hall)
  have hnil : runs ≠ [] := by
    rintro rfl
    rw [List.sum_nil] at hsum
    omega
  refine ⟨?_, hstraight, runs, hsum, hpos, hstopped, ?_⟩
  · rw [halike, hstraight, Machine.tick_without, hpaced]
  · rw [← hsum]
    exact Machine.ticksBefore_sum hhz hnil hpos

/-- A program sets the delay and comes to a breakpoint on which it stays: at one step a frame every
    run but the first stops before its first tick, and the delay is still what it was set to. -/
theorem runThrough_without_timers_selfJump :
    let s : Session Replay :=
      { machine := (Machine.fresh (Replay.ofInts [7])).callAll
          [.load [0x60, 0x09, 0xF0, 0x15, 0x12, 0x04]]
        breakpoints := [0x204] }
    ∃ stopped straight : Machine Replay,
      stopped = (s.runThrough 60 (none : Option (Viewer Replay Unit)) 0 5).machine ∧
      straight = ({ s with breakpoints := [] }.runAtSpeed (60 : Nat) (some (5 : Nat))
        (none : Option (Viewer Replay Unit)) 0).session.machine ∧
      stopped.without .timers = straight.without .timers ∧
      stopped.timers.delay = 9 ∧ straight.timers.delay = 5 := by
  intro s
  have hpatient : Watch.Patient (none : Option (Viewer Replay Unit)) := nofun
  have halike := runThrough_without_timers (s := s) (by decide +kernel)
    (show 1 ≤ 60 by decide) (show 1 ≤ 5 by decide) hpatient (by decide +kernel) 0
  exact ⟨_, _, rfl, rfl, halike.1, by decide +kernel⟩

/-- A program sets the delay and reads it over and over, at one step a frame. A breakpoint in its
    loop costs the ticks of the frames in which it stops, and what the program reads is another
    value than without the breakpoint. -/
theorem runThrough_loses_ticks :
    let s : Session Replay :=
      { machine := (Machine.fresh (Replay.ofInts [7])).callAll
          [.load [0x60, 0x09, 0xF0, 0x15, 0xF1, 0x07, 0x12, 0x04]]
        breakpoints := [0x204] }
    ∃ stopped straight : Machine Replay,
      stopped = (s.runThrough 60 (none : Option (Viewer Replay Unit)) 0 5).machine ∧
      straight = ({ s with breakpoints := [] }.runAtSpeed (60 : Nat) (some (5 : Nat))
        (none : Option (Viewer Replay Unit)) 0).session.machine ∧
      (s.machine.fault = none ∧ stopped.fault = none ∧ straight.fault = none ∧
        stopped.cycles = 5 ∧ straight.cycles = 5 ∧
        stopped.timers.delay = 7 ∧ straight.timers.delay = 5) ∧
      stopped.registers.read 1 = 8 ∧ straight.registers.read 1 = 6 ∧ stopped ≠ straight := by
  intro s
  -- Machines with different registers are different.
  have hdiffer : ∀ {p : Prop} {a b : Machine Replay},
      p ∧ a.registers.read 1 = 8 ∧ b.registers.read 1 = 6 →
        p ∧ a.registers.read 1 = 8 ∧ b.registers.read 1 = 6 ∧ a ≠ b := by
    rintro p a b ⟨hp, ha, hb⟩
    refine ⟨hp, ha, hb, fun heq => ?_⟩
    rw [heq, hb] at ha
    exact absurd ha (by decide)
  exact ⟨_, _, rfl, rfl, hdiffer (by decide +kernel)⟩

end Session

end Debugger

end Chip8
