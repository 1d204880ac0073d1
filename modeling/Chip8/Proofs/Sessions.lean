import Chip8.Debugger.TimedRun
import Chip8.Panel.Registers
import Chip8.Proofs.WellFormed

/-!
# What sessions preserve

A command line moves a session in small ways: the machine is stepped or ticked, a step is counted
towards a frame, the registers are remembered, a key, a breakpoint or the view is changed, the user
is told something. What every one of these moves preserves holds after any command line, wherever
the run that it starts comes to an end, and in every session that is shown on the way.

The parts of a session have their ranges by their types, apart from the machine, the order of the
breakpoints and the two counts of steps.

## Key results

- `Preserved.performLine`: what every move preserves holds after any command line
- `Session.WellFormed`: the invariant of a session, and `Session.preserved_wellFormed`
-/

namespace Chip8

/-! ## Tallies -/

/-- A name stands in a tally because it occurred. -/
def Tally.Positive {α : Type} (t : Tally α) : Prop :=
  ∀ entry ∈ t.entries, 0 < entry.2

/-- One more occurrence leaves every count positive. -/
private theorem Tally.positive_count {α : Type} [DecidableEq α] {t : Tally α} (h : t.Positive)
    (name : α) : (t.count name).Positive := by
  intro entry hentry
  obtain hold | ⟨-, hnew⟩ := mem_count hentry
  · exact h entry hold
  · exact hnew

/-- A step counts its instruction if it completes. -/
private theorem Machine.positive_step {ρ : Type} [ByteSource ρ] {m : Machine ρ}
    (h : m.statistics.Positive) : m.step.machine.statistics.Positive := by
  refine step_induction (P := fun after => after.statistics.Positive) m h (fun _ _ _ => h) ?_
  intro e _ he
  refine Tally.positive_count ?_ _
  rw [(execute_bookkeeping he).2.2.1]
  exact h

/-- A tick counts no instruction. -/
private theorem Machine.positive_tick {ρ : Type} {m : Machine ρ} (h : m.statistics.Positive) :
    m.tick.statistics.Positive := by
  unfold tick
  split
  · exact h
  · exact h

namespace Debugger

/-! ## Breakpoints -/

/-- Toggling puts no address into the list but its own. -/
private theorem eq_or_mem_of_mem_toggleAddress {a b : Address} {list : List Address}
    (h : b ∈ toggleAddress a list) : b = a ∨ b ∈ list := by
  induction list with
  | nil => exact .inl (List.mem_singleton.1 h)
  | cons first rest ih =>
    -- The list is followed up to the place where the address belongs.
    unfold toggleAddress at h
    split at h
    · exact .inr (List.mem_cons_of_mem _ h)
    · split at h
      · exact List.mem_cons.1 h
      · obtain rfl | hrest := List.mem_cons.1 h
        · exact .inr List.mem_cons_self
        · exact (ih hrest).imp_right (List.mem_cons_of_mem _)

/-- Breakpoints stay in rising order. -/
theorem pairwise_toggleAddress {list : List Address} (h : list.Pairwise (· < ·)) (a : Address) :
    (toggleAddress a list).Pairwise (· < ·) := by
  induction list with
  | nil => exact List.pairwise_singleton _ _
  | cons first rest ih =>
    obtain ⟨hfirst, hrest⟩ := List.pairwise_cons.1 h
    unfold toggleAddress
    split
    · exact hrest
    · rename_i hne
      split
      · rename_i hlt
        -- The address belongs here: before the first of the rest, and so before all of it.
        refine List.pairwise_cons.2 ⟨fun b hb => ?_, h⟩
        obtain rfl | hb := List.mem_cons.1 hb
        · exact hlt
        · exact Fin.lt_trans hlt (hfirst b hb)
      · rename_i hnlt
        -- The address belongs further back; the first stays before whatever the tail becomes.
        refine List.pairwise_cons.2 ⟨fun b hb => ?_, ih hrest⟩
        obtain hab | hb := eq_or_mem_of_mem_toggleAddress hb
        · rw [hab]
          exact Nat.lt_of_le_of_ne (Fin.not_lt.1 hnlt) fun heq => hne (Fin.ext heq.symm)
        · exact hfirst b hb

/-- Toggling does not matter to other addresses. -/
theorem mem_toggleAddress_of_ne {a b : Address} (h : b ≠ a) (list : List Address) :
    b ∈ toggleAddress a list ↔ b ∈ list := by
  induction list with
  | nil => exact iff_of_false (fun hb => h (List.mem_singleton.1 hb)) List.not_mem_nil
  | cons first rest ih =>
    unfold toggleAddress
    split
    -- The head is the address: only it goes.
    · next heq => rw [← heq, List.mem_cons, or_iff_right h]
    · split
      · rw [List.mem_cons, or_iff_right h]
      · rw [List.mem_cons, List.mem_cons, ih]

/-- Toggling changes whether the address stands in a rising list. -/
theorem mem_toggleAddress_self {list : List Address} (h : list.Pairwise (· < ·)) (a : Address) :
    a ∈ toggleAddress a list ↔ a ∉ list := by
  induction list with
  | nil => exact iff_of_true (List.mem_singleton_self a) List.not_mem_nil
  | cons first rest ih =>
    obtain ⟨hfirst, hrest⟩ := List.pairwise_cons.1 h
    unfold toggleAddress
    split
    · next heq =>
      subst heq
      -- A rising list does not hold its head twice.
      exact iff_of_false (fun hmem => Fin.lt_irrefl a (hfirst a hmem))
        fun hnot => hnot List.mem_cons_self
    · next hne =>
      split
      · next hlt =>
        -- The address would stand here or before; the list rises, so it is not behind.
        refine iff_of_true List.mem_cons_self fun hmem => ?_
        obtain heq | hmem := List.mem_cons.1 hmem
        · exact hne heq
        · exact Fin.lt_irrefl a (Fin.lt_trans hlt (hfirst a hmem))
      · rw [List.mem_cons, List.mem_cons, or_iff_right hne, or_iff_right hne, ih hrest]

/-! ## Moves of a session -/

variable {ρ α : Type}

/-- A session has a property, and what was shown before are pictures of such sessions. -/
structure Keeps (P : Session ρ → Prop) (viewer : Option (Viewer ρ α)) (s : Session ρ)
    (shown : Array α) : Prop where
  session : P s
  shown : ∀ picture ∈ shown, ∃ v ∈ viewer, ∃ t, P t ∧ picture = v.picture t

section Keeps

variable {P : Session ρ → Prop} {s : Session ρ} {w : Watch ρ α} {viewer : Option (Viewer ρ α)}

/-- Nothing was shown. -/
theorem Keeps.silent (hs : P s) : Keeps P viewer s #[] :=
  ⟨hs, fun picture hpicture => absurd hpicture (Array.not_mem_empty picture)⟩

/-- A showing adds a picture of the session. -/
theorem Keeps.show? (h : Keeps P viewer w.session w.shown) :
    Keeps P viewer (w.show? viewer).2.session (w.show? viewer).2.shown := by
  unfold Watch.show?
  cases viewer with
  | none => exact h
  | some v =>
    have hpush : Keeps P (some v) w.session (w.shown.push (v.picture w.session)) := by
      refine ⟨h.session, fun picture hpicture => ?_⟩
      obtain hold | rfl := Array.mem_push.1 hpicture
      · exact h.shown picture hold
      · exact ⟨v, rfl, w.session, h.session, rfl⟩
    dsimp only
    cases v.patience with
    | none => exact hpush
    | some patience => exact hpush

end Keeps

variable [ByteSource ρ]

/-- Every move of a timed run preserves a property. -/
structure KeptTimed (P : Session ρ → Prop) : Prop where
  tell : ∀ s notice, P s → P (s.tell notice)
  remember : ∀ s, P s → P s.remember
  stepWithKeys : ∀ s, P s → P s.stepWithKeys.1
  tick : ∀ s, P s → P { s with machine := s.machine.tick }

/-- Every move of a run preserves a property; steps may be counted towards a frame. -/
structure KeptRunning (P : Session ρ → Prop) : Prop extends KeptTimed P where
  countStep : ∀ s, P s → P s.countStep

/-- Every move of a session preserves a property. -/
structure Preserved (P : Session ρ → Prop) : Prop extends KeptRunning P where
  toggleKey : ∀ s key, P s → P (s.toggleKey key)
  toggleBreakpoint : ∀ s address, P s → P (s.toggleBreakpoint address)
  setView : ∀ s view, P s → P (s.setView view)

section Moves

variable {P : Session ρ → Prop} {s : Session ρ} {w : Watch ρ α} {viewer : Option (Viewer ρ α)}

/-- Counting the timers down is a series of ticks. -/
private theorem KeptTimed.runDown (h : KeptTimed P) (hs : P s) (count : Nat) :
    P { s with machine := s.machine.runDown count } := by
  induction count generalizing s with
  | zero => exact hs
  | succ count ih =>
    unfold Machine.runDown
    split
    · exact hs
    · exact ih (h.tick s hs)

/-- Ticks by a command count the timers down, or do nothing. -/
private theorem KeptTimed.ticks (h : KeptTimed P) (hs : P s) (count : Int) :
    P { s with machine := s.machine.ticks count } := by
  unfold Machine.ticks
  split
  · exact hs
  · exact h.runDown hs _

/-- A step towards a frame preserves what single steps and the count preserve. -/
theorem KeptRunning.advance (h : KeptRunning P) (hs : P s) : P s.advance.1 := by
  have hstep := h.stepWithKeys s hs
  unfold Session.advance
  cases ha : s.stepWithKeys with
  | mk after rest =>
    rw [ha] at hstep
    obtain ⟨obstacle, note⟩ := rest
    cases obstacle with
    | some obstacle => exact hstep
    | none => exact h.countStep after hstep

/-! ### Steps and runs -/

/-- A step by command preserves what the moves preserve. -/
theorem KeptRunning.step (h : KeptRunning P) (hs : P s) :
    Keeps P viewer (s.step : Reply ρ α).session (s.step : Reply ρ α).shown := by
  unfold Session.step
  split
  · exact .silent (h.tell _ _ hs)
  -- The registers are remembered before the step, and the outcome is told after it.
  · have hadvance := h.advance (h.remember s hs)
    cases ha : s.remember.advance with
    | mk after rest =>
      rw [ha] at hadvance
      obtain ⟨obstacle, note⟩ := rest
      cases obstacle with
      | none => exact .silent (h.tell _ _ hadvance)
      | some obstacle =>
        cases obstacle with
        | fault fault => exact .silent (h.tell _ _ hadvance)
        | source error => exact .silent hadvance

/-- A resumed run, from any of its steps on, preserves what the moves preserve. -/
private theorem KeptRunning.resumeFrom (h : KeptRunning P) (hs : P s) (limit : Int)
    (left done : Nat) (notes : Array Note) :
    let r : Reply ρ α := Session.resumeFrom limit left done s notes
    Keeps P viewer r.session r.shown := by
  -- Induction on the steps left; the next one starts from what `advance` left behind.
  induction left generalizing s done notes with
  | zero => exact .silent (h.tell _ _ hs)
  | succ left ih =>
    have hadvance := h.advance hs
    unfold Session.resumeFrom
    cases ha : s.advance with
    | mk after rest =>
      rw [ha] at hadvance
      obtain ⟨obstacle, note⟩ := rest
      cases obstacle with
      | none =>
        dsimp only
        split
        · exact .silent (h.tell _ _ hadvance)
        · split
          · exact .silent (h.tell _ _ hadvance)
          · exact ih hadvance _ _
      | some obstacle =>
        cases obstacle with
        | fault fault => exact .silent (h.tell _ _ hadvance)
        | source error => exact .silent hadvance

/-- A resumed run preserves what the moves preserve. -/
theorem KeptRunning.resume (h : KeptRunning P) (hs : P s) (limit : Int) :
    Keeps P viewer (s.resume limit : Reply ρ α).session (s.resume limit : Reply ρ α).shown := by
  unfold Session.resume
  split
  · exact .silent (h.tell _ _ hs)
  · exact h.resumeFrom (h.remember s hs) _ _ _ _

/-! ### Timed runs -/

/-- Words that cannot be written are not told. -/
private theorem KeptTimed.watchTell (h : KeptTimed P) (hw : Keeps P viewer w.session w.shown)
    (write : Notice.Writer) (notice : Notice) :
    Keeps P viewer (w.tell write notice).session (w.tell write notice).shown := by
  unfold Watch.tell
  cases write notice with
  | error error => exact hw
  | ok text => exact ⟨h.tell _ notice hw.session, hw.shown⟩

/-- An announcement preserves a property, interrupted or not; what it shows has the property. -/
theorem KeptTimed.announce (h : KeptTimed P) (hw : Keeps P viewer w.session w.shown)
    (write : Notice.Writer) (hz : Int) (notice : Notice) :
    let after := (w.announce write viewer hz notice).2
    Keeps P viewer after.session after.shown := by
  unfold Watch.announce
  cases write notice with
  | error error => exact hw
  | ok text =>
    have htold : Keeps P viewer (w.session.tell notice) w.shown :=
      ⟨h.tell _ notice hw.session, hw.shown⟩
    -- The picture is taken of the session that was told, so it is that session that must keep
    -- `P`.
    have hshow := Keeps.show? (w := { w with session := w.session.tell notice }) htold
    dsimp only
    cases ha : ({ w with session := w.session.tell notice } : Watch ρ α).show? viewer with
    | mk interrupted after =>
      rw [ha] at hshow
      cases interrupted with
      | true => exact h.watchTell hshow write _
      | false => exact hshow

/-- The steps of a frame preserve what a single step preserves. -/
theorem KeptTimed.burst (h : KeptTimed P) (hw : Keeps P viewer w.session w.shown)
    (limit : Option Int) (left : Nat) :
    Keeps P viewer (Watch.burst limit left w).2.session (Watch.burst limit left w).2.shown := by
  -- Induction on the steps left in the frame; a burst shows nothing.
  induction left generalizing w with
  | zero => exact hw
  | succ left ih =>
    have hstep := h.stepWithKeys w.session hw.session
    unfold Watch.burst
    split
    · exact hw
    · cases ha : w.session.stepWithKeys with
      | mk after rest =>
        rw [ha] at hstep
        obtain ⟨obstacle, note⟩ := rest
        cases obstacle with
        | some obstacle => exact ⟨hstep, hw.shown⟩
        | none =>
          dsimp only
          split
          · exact ⟨hstep, hw.shown⟩
          · exact ih ⟨hstep, hw.shown⟩

/-- One frame preserves what its moves preserve, whichever way it ends. -/
theorem KeptTimed.frame (h : KeptTimed P) (hw : Keeps P viewer w.session w.shown)
    (write : Notice.Writer) (hz : Int) (limit : Option Int) (budget : Int) :
    let after := (w.frame write viewer hz limit budget).2
    Keeps P viewer after.session after.shown := by
  have hopened : Keeps P viewer w.session.remember w.shown := ⟨h.remember _ hw.session, hw.shown⟩
  have hburst := h.burst (w := { w with session := w.session.remember }) hopened limit
    ((budget + hz) / 60).toNat
  unfold Watch.frame
  dsimp only
  -- Only after the burst is it known whether the frame has a tick.
  cases ha : Watch.burst limit ((budget + hz) / 60).toNat
      { w with session := w.session.remember } with
  | mk stop after =>
    rw [ha] at hburst
    cases stop with
    | some stop =>
      cases stop with
      | breakpoint => exact h.announce hburst write hz _
      | obstacle obstacle =>
        cases obstacle with
        | fault fault => exact h.announce hburst write hz _
        | source error => exact hburst
    | none =>
      -- The frame is complete: its tick, its picture, and the last words at the limit.
      let session := { after.session with machine := after.session.machine.tick }
      let notice := Notice.running hz after.steps session.machine.pc
      have hticked : Keeps P viewer session after.shown := ⟨h.tick _ hburst.session, hburst.shown⟩
      have hshow := h.announce (w := { after with session }) hticked write hz notice
      dsimp only
      split
      · next shown hended =>
        rw [hended] at hshow
        exact hshow
      · next shown hgoes =>
        rw [hgoes] at hshow
        split
        · exact h.announce hshow write hz _
        · exact hshow

/-- Frames preserve what one frame preserves, however many there are. -/
private theorem KeptTimed.runFrames (h : KeptTimed P) (hw : Keeps P viewer w.session w.shown)
    (write : Notice.Writer) (hz : Int) (limit : Option Int) (frames : Nat) (budget : Int) :
    let after := Watch.runFrames write viewer hz limit frames budget w
    Keeps P viewer after.session after.shown := by
  -- Induction on the horizon; the budget plays no part in what is kept.
  induction frames generalizing w budget with
  | zero => exact hw
  | succ frames ih =>
    have hframe := h.frame hw write hz limit budget
    unfold Watch.runFrames
    dsimp only
    split
    · next after hended =>
      rw [hended] at hframe
      exact hframe
    · next left after hgoes =>
      rw [hgoes] at hframe
      exact ih hframe left

/-- A timed run preserves what its moves preserve. -/
theorem KeptTimed.runAtSpeed (h : KeptTimed P) (hs : P s) (hz : Int) (limit : Option Int)
    (viewer : Option (Viewer ρ α)) (horizon : Nat) (write : Notice.Writer := .plain) :
    Keeps P viewer (s.runAtSpeed hz limit viewer horizon write).session
      (s.runAtSpeed hz limit viewer horizon write).shown := by
  unfold Session.runAtSpeed
  split
  · exact .silent (h.tell _ _ hs)
  · exact h.runFrames (w := { session := s }) (.silent hs) write _ _ _ _

/-! ### Commands -/

/-- Every command is one move or a run of moves. -/
private theorem Preserved.perform (h : Preserved P) (hs : P s) (viewer : Option (Viewer ρ α))
    (horizon : Nat) (command : Command) :
    Keeps P viewer (s.perform viewer horizon command).session
      (s.perform viewer horizon command).shown := by
  cases command with
  | step => exact h.step hs
  | resume => exact h.resume hs _
  | run hz limit => exact h.runAtSpeed hs hz limit viewer horizon
  | tick count => exact .silent (h.tell _ _ (h.ticks hs count))
  | key key => exact .silent (h.toggleKey s key hs)
  | breakpoint address => exact .silent (h.toggleBreakpoint s address hs)
  | view address => exact .silent (h.setView s address hs)
  | help => exact .silent (h.tell _ _ hs)
  | quit => exact .silent hs

/-- What every move preserves holds after any command line, and in all that is shown meanwhile. -/
theorem Preserved.performLine (h : Preserved P) (hs : P s) (viewer : Option (Viewer ρ α))
    (horizon : Nat) (line : String) :
    Keeps P viewer (s.performLine viewer horizon line).session
      (s.performLine viewer horizon line).shown := by
  unfold Session.performLine
  split
  · exact h.perform hs viewer horizon _
  · exact .silent (h.tell _ _ hs)

end Moves

/-! ## The invariant -/

/-- Every part of a session has its size, and every value its range. -/
structure Session.WellFormed {ρ : Type} (s : Session ρ) : Prop where
  machine : s.machine.WellFormed
  counts : s.machine.statistics.Positive
  breakpoints : s.breakpoints.Pairwise (· < ·) ∧ ∀ a ∈ s.breakpoints, a.val ≤ 4095
  view : ∀ a ∈ s.view, a.val ≤ 4095
  held : s.held.toList.length = 16
  previous : s.previous.snapshot.length = 16 ∧
    ∀ value ∈ s.previous.snapshot, 0 ≤ value ∧ value ≤ 255
  stepsPerFrame : s.stepsPerFrame = 10
  frameSteps : 0 ≤ s.frameSteps ∧ s.frameSteps < 10

namespace Session

variable {s : Session ρ}

omit [ByteSource ρ] in
/-- Only these parts could leave their ranges. -/
theorem WellFormed.of_parts (hm : s.machine.WellFormed) (hc : s.machine.statistics.Positive)
    (hb : s.breakpoints.Pairwise (· < ·)) (hsize : s.stepsPerFrame = 10)
    (hdone : 0 ≤ s.frameSteps ∧ s.frameSteps < 10) : s.WellFormed where
  machine := hm
  counts := hc
  breakpoints := ⟨hb, fun a _ => Nat.le_of_lt_succ a.isLt⟩
  view a _ := Nat.le_of_lt_succ a.isLt
  held := Vector.length_toList
  -- What the panel remembers are registers, and these are bytes.
  previous := by
    constructor
    · rw [Registers.snapshot, List.length_map, Registers.length_toList]
    · intro value h
      obtain ⟨byte, -, rfl⟩ := List.mem_map.1 h
      exact Machine.byte_in_range byte
  stepsPerFrame := hsize
  frameSteps := hdone

omit [ByteSource ρ] in
/-- A session stays well-formed whatever becomes of its machine, if that does. -/
private theorem WellFormed.with_machine (h : s.WellFormed) {m : Machine ρ} (hm : m.WellFormed)
    (hc : m.statistics.Positive) : { s with machine := m }.WellFormed :=
  { h with machine := hm, counts := hc }

/-- Every move of a session keeps it well-formed. -/
theorem preserved_wellFormed : Preserved (WellFormed : Session ρ → Prop) where
  tell _ _ h := { h with }
  remember _ h := .of_parts h.machine h.counts h.breakpoints.1 h.stepsPerFrame h.frameSteps
  stepWithKeys s h := h.with_machine (h.machine.hold s.held).step
    (Machine.positive_step (m := s.machine.hold s.held) h.counts)
  countStep s h := by
    have hsize := h.stepsPerFrame
    have hdone := h.frameSteps
    unfold countStep
    split
    · have hnone : 0 ≤ (0 : Int) ∧ (0 : Int) < 10 := by decide
      exact .of_parts h.machine.tick (Machine.positive_tick h.counts) h.breakpoints.1 hsize hnone
    · have hnext : 0 ≤ s.frameSteps + 1 ∧ s.frameSteps + 1 < 10 := by omega
      exact .of_parts h.machine h.counts h.breakpoints.1 hsize hnext
  tick _ h := h.with_machine h.machine.tick (Machine.positive_tick h.counts)
  toggleKey _ _ h := .of_parts h.machine h.counts h.breakpoints.1 h.stepsPerFrame h.frameSteps
  toggleBreakpoint _ address h := .of_parts h.machine h.counts
    (pairwise_toggleAddress h.breakpoints.1 address) h.stepsPerFrame h.frameSteps
  setView _ _ h := .of_parts h.machine h.counts h.breakpoints.1 h.stepsPerFrame h.frameSteps

end Session

end Debugger

end Chip8
