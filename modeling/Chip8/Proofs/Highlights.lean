import Chip8.Proofs.Beats
import Chip8.Proofs.Commands
import Chip8.Proofs.RegisterPanel

/-!
# What a command changed

A command that runs the machine first remembers the registers, and a timed run remembers them again
at the beginning of every frame. Nothing else touches what is remembered, whatever brings the
command to its end. So the panel highlights the registers that differ from those with which the
command, or the last frame of a timed run, was begun.

## Key results

- `Session.previous_step`, `Session.previous_resume`: what steps and runs remember
- `Watch.exists_frame`: what a frame remembers, and its beats
- `Session.commands_highlight`: what the panel highlights after a command
-/

namespace Chip8

/-! ## Frames of beats -/

/-- The beats of a frame: steps, and a tick behind them unless a step cuts the frame short. -/
inductive Beat.Frame : List Beat → Prop
  | whole (steps : Nat) : Frame (List.replicate steps .step ++ [.tick])
  | cut (steps : Nat) : Frame (List.replicate (steps + 1) .step)

namespace Debugger

variable {ρ α : Type} [ByteSource ρ]

/-! ## Steps and runs -/

namespace Session

variable {s : Session ρ}

omit [ByteSource ρ] in
@[simp] theorem previous_countStep (s : Session ρ) : s.countStep.previous = s.previous := by
  unfold countStep
  split
  · rfl
  · rfl

/-- Advancing forgets nothing. -/
private theorem previous_advance (s : Session ρ) : s.advance.1.previous = s.previous := by
  have hstep : s.stepWithKeys.1.previous = s.previous := rfl
  unfold advance
  cases ha : s.stepWithKeys with
  | mk after rest =>
    rw [ha] at hstep
    obtain ⟨obstacle, note⟩ := rest
    cases obstacle with
    | some obstacle => exact hstep
    | none => exact (previous_countStep after).trans hstep

/-- A step remembers the registers before it. -/
theorem previous_step (running : s.machine.fault = none) :
    (s.step : Reply ρ α).session.previous = s.machine.registers := by
  have hadvance : s.remember.advance.1.previous = s.machine.registers :=
    previous_advance s.remember
  simp only [step, running]
  cases ha : s.remember.advance with
  | mk after rest =>
    rw [ha] at hadvance
    obtain ⟨obstacle, note⟩ := rest
    cases obstacle with
    | none => exact hadvance
    | some obstacle =>
      cases obstacle with
      | fault fault => exact hadvance
      | source error => exact hadvance

/-- A run that is under way does not look back again. -/
private theorem previous_resumeFrom (limit : Int) (left done : Nat) (s : Session ρ)
    (notes : Array Note) :
    (resumeFrom limit left done s notes : Reply ρ α).session.previous = s.previous := by
  -- Induction on the steps that are left; wherever the run stops, it has only advanced.
  induction left generalizing done s notes with
  | zero => rfl
  | succ left ih =>
    have hadvance := previous_advance s
    unfold resumeFrom
    cases ha : s.advance with
    | mk after rest =>
      rw [ha] at hadvance
      obtain ⟨obstacle, note⟩ := rest
      cases obstacle with
      | some obstacle =>
        cases obstacle with
        | fault fault => exact hadvance
        | source error => exact hadvance
      | none =>
        dsimp only
        split
        · exact hadvance
        · split
          · exact hadvance
          · exact (ih _ _ _).trans hadvance

/-- A run remembers the registers before it. -/
theorem previous_resume (running : s.machine.fault = none) (limit : Int) :
    (s.resume limit : Reply ρ α).session.previous = s.machine.registers := by
  rw [resume, running]
  exact previous_resumeFrom limit limit.toNat 0 s.remember #[]

end Session

/-! ## Frames of a timed run -/

namespace Watch

variable {write : Notice.Writer} {viewer : Option (Viewer ρ α)} {hz budget : Int}
  {limit : Option Int} {w after : Watch ρ α} {s : Session ρ} {frames : Nat}

/-- A timed run of the session that has gone through so many frames begins the next one. -/
inductive Begins (write : Notice.Writer) (viewer : Option (Viewer ρ α)) (hz : Int)
    (limit : Option Int) (s : Session ρ) : (frames : Nat) → (budget : Int) → Watch ρ α → Prop
  | start : Begins write viewer hz limit s 0 0 { session := s }
  | next {frames : Nat} {budget left : Int} {w after : Watch ρ α}
    (earlier : Begins write viewer hz limit s frames budget w)
    (goesOn : w.frame write viewer hz limit budget = (some left, after)) :
    Begins write viewer hz limit s (frames + 1) left after

/-- However a timed run ends, it is where the last frame that was begun leaves it: one that does not
    let the run go on, or the last one that the run is given. -/
private theorem Begins.runFrames (h : Begins write viewer hz limit s frames budget w) (more : Nat) :
    ∃ last budget' begun, Begins write viewer hz limit s last budget' begun ∧
      ((begun.frame write viewer hz limit budget').1 = none ∨ last = frames + more) ∧
      (Watch.runFrames write viewer hz limit (more + 1) budget w).session =
        (begun.frame write viewer hz limit budget').2.session := by
  -- Induction on the frames that are left after this one.
  induction more generalizing frames budget w with
  | zero =>
    refine ⟨frames, budget, w, h, .inr rfl, ?_⟩
    rw [Watch.runFrames]
    cases w.frame write viewer hz limit budget with
    | mk left after =>
      cases left with
      | none => rfl
      | some left => rfl
  | succ more ih =>
    rw [Watch.runFrames]
    cases hframe : w.frame write viewer hz limit budget with
    | mk left after =>
      cases left with
      | none => exact ⟨frames, budget, w, h, .inl (by rw [hframe]), by rw [hframe]⟩
      | some left =>
        obtain ⟨last, budget', begun, hbegun, hends, hrun⟩ := ih (h.next hframe)
        exact ⟨last, budget', begun, hbegun, hends.imp_right (by omega), hrun⟩

/-- From where it was begun, a frame remembers the registers, and its beats do the rest. -/
structure Follows (w : Watch ρ α) (beats : List Beat) (after : Watch ρ α) : Prop where
  previous : after.session.previous = w.session.machine.registers
  held : after.session.held = w.session.held
  machine : after.session.machine = w.session.machine.play w.session.held beats

/-- What is told and shown does not matter to the beats of a frame. -/
theorem Follows.announce {beats : List Beat} (h : w.Follows beats after) (write : Notice.Writer)
    (viewer : Option (Viewer ρ α)) (hz : Int) (notice : Notice) :
    w.Follows beats (after.announce write viewer hz notice).2 := by
  obtain ⟨told, failure, shown, heq⟩ := exists_announce_eq write viewer hz notice after
  rw [heq]
  exact ⟨h.previous, h.held, h.machine⟩

/-- A frame that ends with a tick has it as its last beat. -/
theorem Follows.tick {beats : List Beat} (h : w.Follows beats after) :
    w.Follows (beats ++ [.tick])
      { after with session := { after.session with machine := after.session.machine.tick } } where
  previous := h.previous
  held := h.held
  machine := by
    rw [Machine.play_append_singleton, ← h.machine]
    rfl

/-- The steps of a frame change nothing but the machine; there are some if the frame is cut
    short. -/
private theorem exists_burst (limit : Option Int) (left : Nat) (w : Watch ρ α) :
    ∃ steps : Nat, (burst limit left w).2.session =
        { w.session with
          machine := w.session.machine.play w.session.held (List.replicate steps .step) } ∧
      ((burst limit left w).1 ≠ none → 0 < steps) := by
  -- Induction on the steps that are left. A frame is cut short only behind a step, so that a cut
  -- frame has at least one.
  induction left generalizing w with
  | zero => exact ⟨0, rfl, fun h => absurd rfl h⟩
  | succ left ih =>
    have hstep : w.session.stepWithKeys.1 =
        { w.session with
          machine := w.session.machine.play w.session.held [.step] } := rfl
    unfold burst
    split
    · exact ⟨0, rfl, fun h => absurd rfl h⟩
    · cases ha : w.session.stepWithKeys with
      | mk session rest =>
        rw [ha] at hstep
        dsimp only at hstep
        subst hstep
        obtain ⟨obstacle, note⟩ := rest
        cases obstacle with
        | some obstacle => exact ⟨1, rfl, fun _ => Nat.one_pos⟩
        | none =>
          dsimp only
          split
          · exact ⟨1, rfl, fun _ => Nat.one_pos⟩
          · obtain ⟨steps, hsession, -⟩ := ih { w with
              session := { w.session with
                machine := w.session.machine.play w.session.held [.step] }
              steps := w.steps + 1
              notes := addNote w.notes note }
            exact ⟨steps + 1, hsession, fun _ => Nat.succ_pos steps⟩

/-- A frame remembers the registers with which it was begun, and has the beats of a frame; with a
    tick if the run goes on. -/
theorem exists_frame (write : Notice.Writer) (viewer : Option (Viewer ρ α)) (hz : Int)
    (limit : Option Int) (budget : Int) (w : Watch ρ α) :
    ∃ beats, Beat.Frame beats ∧ w.Follows beats (w.frame write viewer hz limit budget).2 ∧
      ((w.frame write viewer hz limit budget).1 ≠ none →
        ∃ steps, beats = List.replicate steps .step ++ [.tick]) := by
  obtain ⟨steps, hsession, hcut⟩ := exists_burst limit ((budget + hz) / 60).toNat
    { w with session := w.session.remember }
  unfold frame
  dsimp only
  -- What the steps do is known from `exists_burst`; a frame then ends in one of four ways.
  cases hb : burst limit ((budget + hz) / 60).toNat { w with session := w.session.remember } with
  | mk stop after =>
    rw [hb] at hsession hcut
    have hsteps : w.Follows (List.replicate steps .step) after := by
      refine ⟨?_, ?_, ?_⟩ <;> rw [hsession] <;> rfl
    cases stop with
    | some stop =>
      obtain ⟨earlier, rfl⟩ := Nat.exists_eq_add_of_le' (hcut nofun)
      cases stop with
      | breakpoint => exact ⟨_, .cut earlier, hsteps.announce .., fun h => absurd rfl h⟩
      | obstacle obstacle =>
        cases obstacle with
        | fault fault => exact ⟨_, .cut earlier, hsteps.announce .., fun h => absurd rfl h⟩
        | source error =>
          exact ⟨_, .cut earlier, ⟨hsteps.previous, hsteps.held, hsteps.machine⟩,
            fun h => absurd rfl h⟩
    | none =>
      -- A whole frame ticks, whether it is told of and shown or not.
      refine ⟨_, .whole steps, ?_, fun _ => ⟨steps, rfl⟩⟩
      dsimp only
      have hticked := hsteps.tick.announce write viewer hz
        (.running hz after.steps after.session.machine.tick.pc)
      split
      · next shown ha =>
        rw [ha] at hticked
        exact hticked
      · next shown ha =>
        rw [ha] at hticked
        split
        · exact hticked.announce ..
        · exact hticked

/-- What a timed run has done to its machine before it begins a frame: the beats of whole frames. -/
private theorem Begins.exists_opened (h : Begins write viewer hz limit s frames budget w) :
    w.session.held = s.held ∧ ∃ opened : List Beat,
      w.session.machine = s.machine.play s.held opened ∧ opened.count .tick = frames ∧
        (opened = [] ∨ opened.getLast? = some .tick) := by
  -- Induction on the frames; a frame that lets the run go on ends with its tick.
  induction h with
  | start => exact ⟨rfl, [], rfl, rfl, .inl rfl⟩
  | @next frames budget left w after earlier goesOn ih =>
    obtain ⟨hheld, opened, hmachine, hcount, -⟩ := ih
    obtain ⟨beats, -, hfollows, hwhole⟩ := exists_frame write viewer hz limit budget w
    rw [goesOn] at hfollows hwhole
    obtain ⟨steps, rfl⟩ := hwhole nofun
    refine ⟨hfollows.held.trans hheld, opened ++ (List.replicate steps .step ++ [.tick]), ?_, ?_,
      .inr ?_⟩
    · rw [hfollows.machine, hmachine, hheld, ← Machine.play_append]
    · have hsteps : (List.replicate steps Beat.step).count .tick = 0 := by
        rw [List.count_replicate]
        rfl
      rw [List.count_append, List.count_append, hcount, hsteps]
      rfl
    · rw [← List.append_assoc, List.getLast?_concat]

omit [ByteSource ρ] in
/-- Every run that is watched begins a frame. -/
private theorem frameBound_pos (viewer : Option (Viewer ρ α)) (hz : Int) (limit : Option Int)
    {horizon : Nat} (h : 0 < horizon) : 0 < frameBound viewer hz limit horizon := by
  unfold frameBound
  split
  · exact Nat.succ_pos _
  · split
    · exact Nat.succ_pos _
    · exact h
  · exact h

end Watch

/-! ## The panel after a command -/

namespace Session

variable {s t : Session ρ} {before : Registers}

/-- The register panel of a session has a text, which shows its registers beside earlier ones. -/
def Highlights (t : Session ρ) (before : Registers) : Prop :=
  ∃ text, t.machine.registers.panel (some t.previous.snapshot) = .ok text ∧
    Registers.PanelShows text t.machine.registers before

omit [ByteSource ρ] in
private theorem highlights_of_previous (h : t.previous = before) : t.Highlights before := by
  subst h
  exact Registers.panel_shows t.machine.registers t.previous

/-- The last frame that a timed run of the session has begun: the run goes through so many whole
    frames to `w`, and from there to `t`, where the frame does not let it go on, or where it has had
    all its frames. -/
structure LastFrame (s : Session ρ) (write : Notice.Writer) (viewer : Option (Viewer ρ α))
    (hz : Int) (limit : Option Int) (horizon frames : Nat) (w : Watch ρ α) (t : Session ρ) :
    Prop where
  begun : ∃ budget, Watch.Begins write viewer hz limit s frames budget w ∧
    ((w.frame write viewer hz limit budget).1 = none ∨
      frames + 1 = Watch.frameBound viewer hz limit horizon) ∧
    t = (w.frame write viewer hz limit budget).2.session
  beats : ∃ opened last : List Beat, opened.count .tick = frames ∧
    (opened = [] ∨ opened.getLast? = some .tick) ∧ Beat.Frame last ∧
    w.session.machine = s.machine.play s.held opened ∧
    t.machine = s.machine.play s.held (opened ++ last)

/-- Behind a command that runs the machine, whatever brings it to its end, the register panel has
    four lines of four entries, among which each register stands once with its value, and it
    highlights those that differ from the registers with which the command was begun. Behind a timed
    run these are the registers with which its last frame was begun, also where a notice that cannot
    be worded breaks it off. -/
theorem commands_highlight (running : s.machine.fault = none) :
    (s.step : Reply ρ α).session.Highlights s.machine.registers ∧
    (∀ limit, (s.resume limit : Reply ρ α).session.Highlights s.machine.registers) ∧
    ∀ (hz : Int) (limit : Option Int) (viewer : Option (Viewer ρ α)) (horizon : Nat)
      (write : Notice.Writer), 0 < horizon →
      let t := (s.runAtSpeed hz limit viewer horizon write).session
      ∃ frames, ∃ w : Watch ρ α, s.LastFrame write viewer hz limit horizon frames w t ∧
        t.Highlights w.session.machine.registers := by
  refine ⟨highlights_of_previous (previous_step running),
    fun limit => highlights_of_previous (previous_resume running limit), ?_⟩
  intro hz limit viewer horizon write hhorizon t
  -- From the first frame on the run comes to a last one that it begins.
  obtain ⟨more, hmore⟩ :=
    Nat.exists_eq_add_of_le' (Watch.frameBound_pos viewer hz limit hhorizon)
  have hstart : Watch.Begins write viewer hz limit s 0 0 { session := s } := .start
  obtain ⟨frames, budget, w, hbegun, hends, hrun⟩ := hstart.runFrames more
  have ht : t = (w.frame write viewer hz limit budget).2.session := by
    show (s.runAtSpeed hz limit viewer horizon write).session = _
    rw [runAtSpeed, running]
    dsimp only [Watch.reply]
    rw [hmore, hrun]
  -- The frames before the last are whole, and the last has the beats of a frame.
  obtain ⟨hheld, opened, hmachine, hcount, hopened⟩ := hbegun.exists_opened
  obtain ⟨last, hlast, hfollows, -⟩ := Watch.exists_frame write viewer hz limit budget w
  refine ⟨frames, w, ⟨⟨budget, hbegun, hends.imp_right fun hlast => ?_, ht⟩,
    opened, last, hcount, hopened, hlast, hmachine, ?_⟩, ?_⟩
  · rw [hlast, hmore, Nat.zero_add]
  · rw [ht, hfollows.machine, hmachine, hheld, ← Machine.play_append]
  · rw [ht]
    exact highlights_of_previous hfollows.previous

/-- A program sets two registers, one of them to what it is already, and returns without a call. A
    run highlights the one that changed. At sixty steps a second the return has a frame of its own,
    in which nothing changes, so that nothing is highlighted. -/
theorem commands_highlight_underflow :
    let s : Session Replay :=
      { machine := (Machine.fresh (Replay.ofInts [7])).callAll
          [.load [0x60, 0x05, 0x65, 0x00, 0x00, 0xEE]] }
    let resumed := (s.resume : Reply Replay Unit).session
    let timed := (s.runAtSpeed 60 none (none : Option (Viewer Replay Unit)) 9).session
    (s.machine.fault = none ∧ resumed.machine.fault = some (.stackUnderflow 0x204) ∧
      timed.machine.fault = some (.stackUnderflow 0x204) ∧
      resumed.machine.registers.panel (some resumed.previous.snapshot) = .ok
        ("[bold yellow]V0 0x05[/bold yellow]  V4 0x00  V8 0x00  VC 0x00\n" ++
          "V1 0x00  V5 0x00  V9 0x00  VD 0x00\nV2 0x00  V6 0x00  VA 0x00  VE 0x00\n" ++
          "V3 0x00  V7 0x00  VB 0x00  VF 0x00") ∧
      timed.machine.registers.panel (some timed.previous.snapshot) = .ok
        ("V0 0x05  V4 0x00  V8 0x00  VC 0x00\nV1 0x00  V5 0x00  V9 0x00  VD 0x00\n" ++
          "V2 0x00  V6 0x00  VA 0x00  VE 0x00\nV3 0x00  V7 0x00  VB 0x00  VF 0x00")) ∧
    resumed.Highlights s.machine.registers ∧
    ∃ frames, ∃ w : Watch Replay Unit, s.LastFrame .plain none 60 none 9 frames w timed ∧
      timed.Highlights w.session.machine.registers := by
  intro s resumed timed
  have running : s.machine.fault = none := by decide +kernel
  obtain ⟨-, hresume, htimed⟩ := commands_highlight (α := Unit) running
  exact ⟨by decide +kernel, hresume _, htimed 60 none none 9 .plain (by decide)⟩

end Session

end Debugger

end Chip8
