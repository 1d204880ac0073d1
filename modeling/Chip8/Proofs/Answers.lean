import Chip8.Proofs.Schedule

/-!
# Which command lines are answered

A command line is answered, unless the source refuses a byte or a timed run does not come to an end.
A run that has a limit always does, and so does one whose viewer runs out of patience; without
either it may go on for ever, as a program does that jumps to itself. How many frames a run is given
does not matter to an answer: where there is one, more frames give the same.

## Key results

- `Session.performLine_eq_of_finished`: an answer does not depend on the frames that were given
- `Session.finished_of_limit`, `Session.finished_of_patience`: timed runs that end
- `Session.unfinished_of_circles`: a timed run that does not
- `Session.performLine_frame`: what command lines answer and touch
-/

namespace Chip8

namespace Debugger

variable {ρ α : Type} [ByteSource ρ] {s : Session ρ} {w after : Watch ρ α}
  {write : Notice.Writer} {viewer : Option (Viewer ρ α)} {hz : Int} {limit : Option Int}
  {horizon more : Nat} {line : String}

/-! ## More frames -/

namespace Watch

/-- Frames that are left over do not matter to a run that has come to its end. -/
private theorem runFrames_eq_of_finished {frames : Nat} {budget : Int}
    (h : (runFrames write viewer hz limit frames budget w).unfinished = false)
    (hmore : frames ≤ more) :
    runFrames write viewer hz limit more budget w =
      runFrames write viewer hz limit frames budget w := by
  -- Both runs go through the same frames, until one of them ends the shorter run.
  induction frames generalizing more budget w with
  | zero => cases h
  | succ frames ih =>
    obtain ⟨more, rfl⟩ := Nat.exists_eq_add_of_le' hmore
    rw [show more + (frames + 1) = (more + frames) + 1 by omega]
    unfold runFrames at h ⊢
    cases hframe : w.frame write viewer hz limit budget with
    | mk left after =>
      rw [hframe] at h
      cases left with
      | none => rfl
      | some left => exact ih h (Nat.le_add_left frames more)

omit [ByteSource ρ] in
/-- A longer horizon gives a run no fewer frames. -/
private theorem frameBound_mono (hmore : horizon ≤ more) :
    frameBound viewer hz limit horizon ≤ frameBound viewer hz limit more := by
  -- The horizon counts only where neither patience nor limit bounds the frames.
  unfold frameBound
  split
  · exact Nat.le_refl _
  · split
    · exact Nat.le_refl _
    · exact hmore
  · exact hmore

end Watch

namespace Session

/-- More frames do not change a timed run that has ended. -/
private theorem runAtSpeed_eq_of_finished
    (h : (s.runAtSpeed hz limit viewer horizon write).unfinished = false) (hmore : horizon ≤ more) :
    s.runAtSpeed hz limit viewer more write = s.runAtSpeed hz limit viewer horizon write := by
  unfold runAtSpeed at h ⊢
  split at h
  · rfl
  · exact congrArg Watch.reply (Watch.runFrames_eq_of_finished h (Watch.frameBound_mono hmore))

/-- More frames do not change a reply that is finished. -/
theorem performLine_eq_of_finished (h : (s.performLine viewer horizon line).unfinished = false)
    (hmore : horizon ≤ more) :
    s.performLine viewer more line = s.performLine viewer horizon line := by
  unfold performLine at h ⊢
  cases hline : Command.ofLine line with
  | error refusal => rfl
  | ok command =>
    rw [hline] at h
    -- Only timed runs look at the number of frames.
    cases command with
    | run hz limit => exact runAtSpeed_eq_of_finished h hmore
    | _ => rfl

/-! ## Commands that end -/

/-- A step comes to an end. -/
private theorem finished_step (s : Session ρ) : (s.step : Reply ρ α).unfinished = false := by
  unfold step
  split
  · rfl
  · split
    · rfl
    · rfl
    · rfl

/-- A resumed run comes to an end. -/
private theorem finished_resume (s : Session ρ) (limit : Int) :
    (s.resume limit : Reply ρ α).unfinished = false := by
  -- Induction on the steps left: the run ends here, or goes on with one step less.
  have hfrom (left done : Nat) (s : Session ρ) (notes : Array Note) :
      (resumeFrom limit left done s notes : Reply ρ α).unfinished = false := by
    induction left generalizing done s notes with
    | zero => rfl
    | succ left ih =>
      unfold resumeFrom
      split
      · rfl
      · rfl
      · dsimp only
        split
        · rfl
        · split
          · rfl
          · exact ih _ _ _
  unfold resume
  split
  · rfl
  · exact hfrom ..

/-- A timed run with a limit comes to an end. -/
theorem finished_of_limit {limit : Int} (hhz : 1 ≤ hz) (hlimit : 1 ≤ limit)
    (viewer : Option (Viewer ρ α)) (horizon : Nat) :
    (s.runAtSpeed hz (some limit) viewer horizon).unfinished = false := by
  cases running : s.machine.fault with
  | some fault => rw [runAtSpeed, running]
  | none =>
    obtain ⟨hz, rfl⟩ := Int.eq_ofNat_of_zero_le (show 0 ≤ hz by omega)
    obtain ⟨limit, rfl⟩ := Int.eq_ofNat_of_zero_le (show 0 ≤ limit by omega)
    obtain ⟨_, -, w, hends, hrun⟩ := runAtSpeed_endsAs running (Int.ofNat_le.1 hhz)
      (Int.ofNat_le.1 hlimit) viewer horizon
    -- The ending is one of the schedule, and none of these is to run out of frames.
    exact (congrArg Reply.unfinished hrun).trans hends.finished

end Session

namespace Watch

variable {v : Viewer ρ α} {patience : Nat} {budget : Int}

omit [ByteSource ρ] in
/-- Where an announcement does not end the run, the viewer has seen one showing more and has
    patience left. -/
private theorem shown_of_announce (hv : v ∈ viewer) (hp : patience ∈ v.patience) {notice : Notice}
    (h : w.announce write viewer hz notice = (false, after)) :
    after.shown.size = w.shown.size + 1 ∧ after.shown.size < patience := by
  obtain rfl : viewer = some v := hv
  have hpatience : v.patience = some patience := hp
  unfold announce show? at h
  cases hwrite : write notice with
  | error error =>
    rw [hwrite] at h
    cases h
  | ok text =>
    simp only [hwrite, hpatience, Array.size_push] at h
    -- The picture is pushed before the patience is looked at, so that the two sizes differ by
    -- one.
    by_cases hover : patience ≤ w.shown.size + 1
    · rw [decide_eq_true hover] at h
      cases h
    · rw [decide_eq_false hover] at h
      cases h
      rw [Array.size_push]
      exact ⟨rfl, Nat.lt_of_not_le hover⟩

/-- The steps of a frame show nothing. -/
private theorem burst_shown (limit : Option Int) (left : Nat) (w : Watch ρ α) :
    (burst limit left w).2.shown = w.shown := by
  -- Induction on the steps left; whatever a burst changes, it is not what was shown.
  induction left generalizing w with
  | zero => rfl
  | succ left ih =>
    unfold burst
    split
    · rfl
    · split
      · rfl
      · dsimp only
        split
        · rfl
        · exact ih _

/-- Where a frame lets the run go on, the viewer has seen one showing more and has patience
    left. -/
private theorem shown_of_frame {left : Int} {budget : Int} (hv : v ∈ viewer)
    (hp : patience ∈ v.patience)
    (h : w.frame write viewer hz limit budget = (some left, after)) :
    after.shown.size = w.shown.size + 1 ∧ after.shown.size < patience := by
  have hshown := burst_shown limit ((budget + hz) / 60).toNat
    { w with session := w.session.remember }
  unfold Watch.frame at h
  dsimp only at h
  -- Only a frame that takes all its steps can let the run go on.
  split at h
  · cases h
  · cases h
  · cases h
  · next taken hs =>
    rw [hs] at hshown
    split at h
    · cases h
    · next told hannounce =>
      split at h
      · cases h
      · cases h
        -- The run goes on past the announcement and past the limit; it was the announcement that
        -- showed.
        obtain ⟨hone, hlt⟩ := shown_of_announce hv hp hannounce
        exact ⟨hone.trans (congrArg (·.size + 1) hshown), hlt⟩

/-- A timed run ends at the latest when the viewer's patience is over. -/
private theorem finished_of_patience (hv : v ∈ viewer) (hp : patience ∈ v.patience) {frames : Nat}
    (hcalm : w.shown.size = 0 ∨ w.shown.size < patience)
    (enough : patience < w.shown.size + frames) :
    (runFrames write viewer hz limit frames budget w).unfinished = w.unfinished := by
  -- Induction on the frames: each of them uses up one showing, and these are fewer than the
  -- patience.
  induction frames generalizing budget w with
  | zero => omega
  | succ frames ih =>
    have hframe := frame_unfinished write viewer hz limit budget w
    unfold runFrames
    cases hs : w.frame write viewer hz limit budget with
    | mk left after =>
      rw [hs] at hframe
      cases left with
      | none => exact hframe
      | some left =>
        obtain ⟨hone, hlt⟩ := shown_of_frame hv hp hs
        exact (ih (.inr hlt) (by omega)).trans hframe

end Watch

namespace Session

/-- A timed run with an impatient viewer comes to an end. -/
theorem finished_of_patience {v : Viewer ρ α} {patience : Nat} (hv : v ∈ viewer)
    (hp : patience ∈ v.patience) (s : Session ρ) (hz : Int) (limit : Option Int) (horizon : Nat) :
    (s.runAtSpeed hz limit viewer horizon write).unfinished = false := by
  have hbind : viewer.bind (·.patience) = some patience :=
    Option.bind_eq_some_iff.2 ⟨v, hv, hp⟩
  have hbound : Watch.frameBound viewer hz limit horizon = patience + 1 := by
    simp only [Watch.frameBound, hbind]
  unfold runAtSpeed
  split
  · rfl
  · rw [hbound]
    -- The bound is the patience and one more, which is one frame more than it can last.
    refine Watch.finished_of_patience (w := { session := s }) hv hp (.inl rfl) ?_
    show patience < 0 + (patience + 1)
    omega

/-- A command that is not finished is a timed run without a limit, and nobody interrupts it. -/
private theorem run_of_unfinished (h : (s.performLine viewer horizon line).unfinished = true) :
    Watch.Patient viewer ∧ ∃ hz, Command.Says line (.run hz none) := by
  obtain ⟨refusal, -, hr⟩ | ⟨command, hsaid, hr⟩ := s.performLine_cases viewer horizon line
  · cases (congrArg Reply.unfinished hr).symm.trans h
  · rw [hr] at h
    -- Only timed runs can be unfinished: with patience they end, with a limit they end.
    cases command with
    | step => cases (finished_step s).symm.trans h
    | resume => cases (finished_resume s _).symm.trans h
    | run hz limit =>
      constructor
      · intro v hv
        cases hp : v.patience with
        | none => rfl
        | some patience => cases (finished_of_patience hv hp s hz limit horizon).symm.trans h
      · cases limit with
        | none => exact ⟨hz, hsaid⟩
        | some limit =>
          obtain ⟨hhz, hlimit⟩ := hsaid.positive
          cases (finished_of_limit hhz (hlimit limit rfl) viewer horizon).symm.trans h
    | _ => cases h

end Session

/-! ## Runs without an end -/

/-- Sessions of a kind that steps on for ever: every move of a timed run leads to such a session
    again, no step meets an obstacle, and none comes to a breakpoint. -/
structure Endless (P : Session ρ → Prop) : Prop extends KeptTimed P where
  goesOn : ∀ s, P s → s.stepWithKeys.2.1 = none ∧ s.stepWithKeys.1.atBreakpoint = false

section Endless

variable {P : Session ρ → Prop}

/-- Without a limit nothing cuts a frame short. -/
theorem Endless.burst (h : Endless P) (hw : P w.session) (left : Nat) :
    (Watch.burst none left w).1 = none := by
  -- Induction on the steps left; `P` holds before each of them, so that none of them stops the
  -- burst.
  induction left generalizing w with
  | zero => rfl
  | succ left ih =>
    obtain ⟨hcompletes, hpasses⟩ := h.goesOn w.session hw
    have hnext := h.stepWithKeys w.session hw
    unfold Watch.burst
    cases hs : w.session.stepWithKeys with
    | mk session rest =>
      rw [hs] at hcompletes hpasses hnext
      obtain ⟨obstacle, note⟩ := rest
      obtain rfl : obstacle = none := hcompletes
      dsimp only at hpasses
      simp only [limitMet, hpasses, Bool.false_eq_true, if_false]
      exact ih hnext

/-- Every frame lets the run go on, if nobody interrupts it. -/
theorem Endless.frame (h : Endless P) (hw : Keeps P viewer w.session w.shown)
    (hpatient : Watch.Patient viewer) (hz budget : Int) :
    (w.frame .plain viewer hz none budget).1 ≠ none := by
  have hburst := h.burst (w := { w with session := w.session.remember })
    (h.remember _ hw.session) ((budget + hz) / 60).toNat
  unfold Watch.frame
  cases hs : Watch.burst none ((budget + hz) / 60).toNat
      { w with session := w.session.remember } with
  | mk stop after =>
    rw [hs] at hburst
    obtain rfl : stop = none := hburst
    let session := { after.session with machine := after.session.machine.tick }
    -- A viewer who never interrupts leaves a showing to spare at any point.
    have hcalm : Watch.Uninterrupted viewer { after with session } (0 + 1) := by
      intro v hv patience hp
      cases (hpatient v hv).symm.trans hp
    obtain ⟨next, shown, hannounce, -, -⟩ :=
      hcalm.announce hz (.running hz after.steps session.machine.pc)
    simp only [hs, session, hannounce, limitMet, Bool.false_eq_true, if_false]
    exact fun h => by cases h

/-- So the run goes through all the frames it is given, and on. -/
theorem Endless.runFrames (h : Endless P) (hw : Keeps P viewer w.session w.shown)
    (hpatient : Watch.Patient viewer) (hz budget : Int) (frames : Nat) :
    (Watch.runFrames .plain viewer hz none frames budget w).unfinished = true := by
  -- `Keeps P` is the invariant: a frame preserves it and never ends the run.
  induction frames generalizing budget w with
  | zero => rfl
  | succ frames ih =>
    have hgoes := h.frame hw hpatient hz budget
    have hkept := h.toKeptTimed.frame hw .plain hz none budget
    unfold Watch.runFrames
    cases hs : w.frame .plain viewer hz none budget with
    | mk left after =>
      rw [hs] at hgoes hkept
      cases left with
      | none => exact absurd rfl hgoes
      | some left => exact ih hkept left

end Endless

namespace Session

open Command

/-- The machine jumps to where it stands, and there is no breakpoint there. -/
structure Circles (s : Session ρ) : Prop where
  running : s.machine.fault = none
  jump : s.machine.current = .jump s.machine.pc
  free : s.machine.pc ∉ s.breakpoints

/-- A machine that jumps to where it stands stays there. -/
theorem Circles.stepWithKeys (h : s.Circles) :
    s.stepWithKeys.2.1 = none ∧ s.stepWithKeys.1.Circles ∧
      s.stepWithKeys.1.atBreakpoint = false := by
  obtain ⟨running, jump, free⟩ := h
  let m := s.machine.hold s.held
  -- The keys that are held do not matter to the instruction.
  have hcurrent : m.current = .jump m.pc := jump
  -- A jump to its own address changes nothing but the address, and that to itself.
  have hexecute : m.execute m.current = .ok { next := m.pc.val, machine := m } := by
    rw [hcurrent]
    rfl
  have hstep : m.step = _ := Machine.step_of_ok running hexecute
  have hpc : m.step.machine.pc = m.pc := by
    rw [hstep]
    exact Address.ofInt_val m.pc
  have hmemory : m.step.machine.memory = m.memory := by
    rw [hstep]
    rfl
  refine ⟨?_, ⟨?_, ?_, ?_⟩, ?_⟩
  · show m.step.obstacle = none
    rw [Step.obstacle, hstep]
  · show m.step.machine.fault = none
    rw [hstep]
    exact running
  · show m.step.machine.current = .jump m.step.machine.pc
    rw [Machine.current, Machine.currentWord, hmemory, hpc]
    exact hcurrent
  · show m.step.machine.pc ∉ s.breakpoints
    rw [hpc]
    exact free
  · show decide (m.step.machine.pc ∈ s.breakpoints) = false
    rw [hpc]
    exact decide_eq_false free

private theorem endless_circles : Endless fun s : Session ρ => s.Circles where
  tell _ _ h := ⟨h.running, h.jump, h.free⟩
  remember _ h := ⟨h.running, h.jump, h.free⟩
  stepWithKeys _ h := h.stepWithKeys.2.1
  tick s h := by
    unfold Machine.tick
    split
    · exact ⟨h.running, h.jump, h.free⟩
    · exact ⟨h.running, h.jump, h.free⟩
  goesOn _ h := ⟨h.stepWithKeys.1, h.stepWithKeys.2.2⟩

/-- Where the machine jumps to itself, a timed run without a limit goes on for ever. -/
theorem unfinished_of_circles (h : s.Circles) (hpatient : Watch.Patient viewer) (hz : Int)
    (horizon : Nat) : (s.runAtSpeed hz none viewer horizon).unfinished = true := by
  rw [runAtSpeed, h.running]
  exact endless_circles.runFrames (w := { session := s }) (.silent h) hpatient hz 0 _

/-! ## What a line says is all that it touches -/

/-- The answer ends the session exactly with `q` and `quit`, which leave it as it is. -/
private theorem performLine_answer (s : Session ρ) (viewer : Option (Viewer ρ α)) (horizon : Nat)
    (line : String) :
    let r := s.performLine viewer horizon line
    (∀ goesOn, r.answer? = some goesOn →
      (goesOn = false ↔ ∃ arguments, Asks line ["q", "quit"] arguments)) ∧
    ((∃ arguments, Asks line ["q", "quit"] arguments) →
      r.answer? = some false ∧ r.session = s) := by
  intro r
  have hleaves (hquit : ∃ arguments, Asks line ["q", "quit"] arguments) :
      r = { session := s, goesOn := false } :=
    performLine_of_said (.quit hquit.choose_spec) s viewer horizon
  refine ⟨fun goesOn hanswer => ⟨fun hends => ?_, fun hquit => ?_⟩, fun hquit => ?_⟩
  · subst hends
    obtain hgoes | ⟨hquit, -⟩ := s.performLine_goesOn viewer horizon line
    · -- Every other command would let the session go on.
      rw [Reply.answer?, hgoes.goesOn] at hanswer
      split at hanswer
      · cases hanswer
      · cases hanswer
    · exact hquit
  · rw [hleaves hquit] at hanswer
    cases hanswer
    rfl
  · rw [hleaves hquit]
    exact ⟨rfl, rfl⟩

/-- Breakpoints change only by toggling the one that is named. -/
private theorem performLine_breakpoints (s : Session ρ) (rising : s.breakpoints.Pairwise (· < ·))
    (viewer : Option (Viewer ρ α)) (horizon : Nat) (line : String) :
    let t := (s.performLine viewer horizon line).session
    (t.breakpoints ≠ s.breakpoints → ∃ a, Says line (.breakpoint a)) ∧
    (∀ a, Says line (.breakpoint a) → t.breakpoints.Pairwise (· < ·) ∧
      ∀ b, b ∈ t.breakpoints ↔ if b = a then b ∉ s.breakpoints else b ∈ s.breakpoints) := by
  intro t
  refine ⟨fun hchanged => ?_, fun a htoggled => ?_⟩
  · obtain hsame | ⟨_, -, ht⟩ | ⟨a, hsaid, -⟩ | ⟨_, -, ht⟩ :=
      s.performLine_settings viewer horizon line
    · exact absurd hsame.breakpoints hchanged
    · exact absurd (congrArg breakpoints ht) hchanged
    · exact ⟨a, hsaid⟩
    · exact absurd (congrArg breakpoints ht) hchanged
  · have ht : t.breakpoints = toggleAddress a s.breakpoints :=
      congrArg (·.session.breakpoints) (performLine_of_said htoggled s viewer horizon)
    rw [ht]
    refine ⟨pairwise_toggleAddress rising a, fun b => ?_⟩
    by_cases hb : b = a
    · rw [if_pos hb, hb]
      exact mem_toggleAddress_self rising a
    · rw [if_neg hb]
      exact mem_toggleAddress_of_ne hb _

/-- Held keys change only by toggling the one that is named. -/
private theorem performLine_held (s : Session ρ) (viewer : Option (Viewer ρ α)) (horizon : Nat)
    (line : String) :
    let t := (s.performLine viewer horizon line).session
    (t.held ≠ s.held → ∃ key, Says line (.key key)) ∧
    (∀ key, Says line (.key key) →
      ∀ k, t.held.get k = if k = key then !s.held.get k else s.held.get k) := by
  intro t
  refine ⟨fun hchanged => ?_, fun key htoggled => ?_⟩
  · obtain hsame | ⟨key, hsaid, -⟩ | ⟨_, -, ht⟩ | ⟨_, -, ht⟩ :=
      s.performLine_settings viewer horizon line
    · exact absurd hsame.held hchanged
    · exact ⟨key, hsaid⟩
    · exact absurd (congrArg held ht) hchanged
    · exact absurd (congrArg held ht) hchanged
  · have ht : t.held = s.held.toggle key :=
      congrArg (·.session.held) (performLine_of_said htoggled s viewer horizon)
    rw [ht]
    exact get_toggle s.held key

/-- The view changes only by a command that names it, and the number of steps in a frame never. -/
private theorem performLine_view (s : Session ρ) (viewer : Option (Viewer ρ α)) (horizon : Nat)
    (line : String) :
    let t := (s.performLine viewer horizon line).session
    (t.view ≠ s.view → ∃ view, Says line (.view view)) ∧ t.stepsPerFrame = s.stepsPerFrame := by
  intro t
  obtain hsame | ⟨_, -, ht⟩ | ⟨_, -, ht⟩ | ⟨view, hsaid, ht⟩ :=
    s.performLine_settings viewer horizon line
  · exact ⟨fun hchanged => absurd hsame.view hchanged, hsame.stepsPerFrame⟩
  · exact ⟨fun hchanged => absurd (congrArg Session.view ht) hchanged,
      (congrArg stepsPerFrame ht :)⟩
  · exact ⟨fun hchanged => absurd (congrArg Session.view ht) hchanged,
      (congrArg stepsPerFrame ht :)⟩
  · exact ⟨fun _ => ⟨view, hsaid⟩, (congrArg stepsPerFrame ht :)⟩

/-- A command line is answered unless the source refuses a byte or a timed run that has no limit is
    not interrupted; with more frames an answer stays the same. The answer ends the session exactly
    with `q` and `quit`, which are answered at once and leave it as it is. Answered or not, a
    command touches only what it names. The machine, the registers to compare with and the count of
    steps change only by steps and runs, a run having a speed and a limit of at least one; ticks
    change nothing of all this but the timers, and timed runs do not count steps. Breakpoints change
    only by toggling the one address that is named, held keys by toggling the one key, and the view
    only by a view command. A line that is empty, asks for help or is faulty only tells something.
    The number of steps in a frame never changes. -/
theorem performLine_frame (s : Session ρ) (rising : s.breakpoints.Pairwise (· < ·))
    (viewer : Option (Viewer ρ α)) (horizon : Nat) (line : String) :
    let r := s.performLine viewer horizon line
    let t := r.session
    (∀ failure, r.failure = some failure →
      ∃ error, failure = .source error ∧ ByteSource.Refuses ρ error) ∧
    (r.unfinished = true → Watch.Patient viewer ∧ ∃ hz, Says line (.run hz none)) ∧
    (r.unfinished = false → ∀ more, horizon ≤ more → s.performLine viewer more line = r) ∧
    (∀ goesOn, r.answer? = some goesOn →
      (goesOn = false ↔ ∃ arguments, Asks line ["q", "quit"] arguments)) ∧
    ((∃ arguments, Asks line ["q", "quit"] arguments) → r.answer? = some false ∧ t = s) ∧
    (t.machine ≠ s.machine ∨ t.previous ≠ s.previous ∨ t.frameSteps ≠ s.frameSteps →
      Says line .step ∨ Says line .resume ∨ (∃ count, Says line (.tick count)) ∨
        ∃ hz limit, Says line (.run hz limit) ∧ 1 ≤ hz ∧ ∀ n ∈ limit, 1 ≤ n) ∧
    (∀ count, Says line (.tick count) →
      ∃ timers notice, t = { s with machine := { s.machine with timers }, notice }) ∧
    (∀ hz limit, Says line (.run hz limit) → t.frameSteps = s.frameSteps) ∧
    (t.breakpoints ≠ s.breakpoints → ∃ a, Says line (.breakpoint a)) ∧
    (∀ a, Says line (.breakpoint a) → t.breakpoints.Pairwise (· < ·) ∧
      ∀ b, b ∈ t.breakpoints ↔ if b = a then b ∉ s.breakpoints else b ∈ s.breakpoints) ∧
    (t.held ≠ s.held → ∃ key, Says line (.key key)) ∧
    (∀ key, Says line (.key key) →
      ∀ k, t.held.get k = if k = key then !s.held.get k else s.held.get k) ∧
    (t.view ≠ s.view → ∃ view, Says line (.view view)) ∧
    (Text.words line = [] ∨ (∃ arguments, Asks line ["h", "help"] arguments) ∨ Faulty line →
      ∃ notice, t = { s with notice }) ∧
    t.stepsPerFrame = s.stepsPerFrame := by
  intro r t
  have hsaid {command : Command} (h : Says line command) :
      t = (s.perform viewer horizon command).session := by
    rw [← performLine_of_said h]
  -- Each setting has its lemma; what is left are the machine, the ticks and the idle lines.
  obtain ⟨hanswer, hleaves⟩ := s.performLine_answer viewer horizon line
  obtain ⟨hbreakpoints, hbreakpoint⟩ := s.performLine_breakpoints rising viewer horizon line
  obtain ⟨hheld, hkey⟩ := s.performLine_held viewer horizon line
  obtain ⟨hview, hsize⟩ := s.performLine_view viewer horizon line
  refine ⟨fun failure hfailure => ?_, run_of_unfinished,
    fun hfinished more hmore => performLine_eq_of_finished hfinished hmore, hanswer, hleaves,
    fun hchanged => ?_, fun count htick => ?_, fun hz limit hrun => ?_, hbreakpoints, hbreakpoint,
    hheld, hkey, hview, fun hidle => ?_, hsize⟩
  · -- Every notice is worded here, so that only the source breaks a command off.
    obtain hgoes | ⟨-, hr⟩ := s.performLine_goesOn viewer horizon line
    · exact (hgoes.failure failure hfailure).exists_source
    · cases (congrArg Reply.failure hr).symm.trans hfailure
  · -- Where none of these lines was entered, all three parts are the same as before.
    obtain ⟨hm, hp, hf⟩ | hstep | hresume | htick | ⟨hz, limit, hrun⟩ :=
      s.performLine_machine viewer horizon line
    · exact absurd hchanged (by simp only [t, r, hm, hp, hf, ne_eq, not_true_eq_false, or_self,
        not_false_eq_true])
    · exact .inl hstep
    · exact .inr (.inl hresume)
    · exact .inr (.inr (.inl htick))
    · exact .inr (.inr (.inr ⟨hz, limit, hrun, hrun.positive⟩))
  · -- Ticks are told with the timers that they lead to.
    obtain ⟨timers, htimers⟩ := exists_ticks_eq s.machine count
    refine ⟨timers, .ticked count timers, ?_⟩
    rw [hsaid htick, perform, tick, htimers]
    rfl
  · rw [hsaid hrun]
    exact (s.runAtSpeed_settings hz limit viewer horizon).2
  · obtain ⟨notice, hr⟩ := performLine_of_idle hidle s viewer horizon
    exact ⟨notice, congrArg Reply.session hr⟩

/-- A breakpoint is named in capitals, with more digits than an address has and more words than the
    command takes: it is removed, the session goes on, and nothing else is touched. -/
theorem performLine_frame_removes :
    let s : Session Replay :=
      { machine := .fresh (Replay.ofInts [7]), breakpoints := [0x200, 0x204] }
    let r := s.performLine (none : Option (Viewer Replay Unit)) 0 " B 0x1204 now"
    s.breakpoints.Pairwise (· < ·) ∧ r.answer? = some true ∧
      (∀ more, s.performLine (none : Option (Viewer Replay Unit)) more " B 0x1204 now" = r) ∧
      (∀ b, b ∈ r.session.breakpoints ↔
        if b = 0x204 then b ∉ s.breakpoints else b ∈ s.breakpoints) ∧
      r.session.stepsPerFrame = 10 := by
  intro s r
  have rising : s.breakpoints.Pairwise (· < ·) := by decide
  obtain ⟨-, -, hmore, -, -, -, -, -, -, hbreakpoint, -, -, -, -, hsize⟩ :=
    performLine_frame s rising (none : Option (Viewer Replay Unit)) 0 " B 0x1204 now"
  have hsaid : Says " B 0x1204 now" (.breakpoint (Address.ofInt 0x1204)) :=
    @Says.breakpoint _ "0x1204" ["now"] 0x1204 ⟨"B", by decide +kernel, by decide +kernel⟩
      (by decide +kernel)
  exact ⟨rising, by decide +kernel, fun more => hmore (by decide +kernel) more (Nat.zero_le more),
    (hbreakpoint _ hsaid).2, hsize⟩

/-- Lines that do not leave the session, and are not answered either. On a program that jumps to
    itself a timed run has no end, however many frames it is given; and a step does not come to its
    end if the source refuses it a byte. -/
theorem performLine_unanswered :
    let circling : Session Replay :=
      { machine := (Machine.fresh (Replay.ofInts [7])).callAll [.load [0x12, 0x00]] }
    let refused : Session Replay :=
      { machine := (Machine.fresh (Replay.ofInts [])).callAll [.load [0xC0, 0xFF]] }
    let viewer : Option (Viewer Replay Unit) := none
    (∀ line ∈ ["r 60", "s"], ¬∃ arguments, Asks line ["q", "quit"] arguments) ∧
      (∀ horizon, (circling.performLine viewer horizon "r 60").answer? = none) ∧
      ∀ horizon, (refused.performLine viewer horizon "s").answer? = none := by
  intro circling refused viewer
  have hrun : Says "r 60" (.run 60 none) :=
    @Says.run _ "60" [] 60 none ⟨"r", by decide +kernel, by decide +kernel⟩ (by decide +kernel)
      (by decide) .none
  have hstep : Says "s" .step := @Says.step _ [] ⟨"s", by decide +kernel, by decide +kernel⟩
  have hcircles : circling.Circles := ⟨by decide +kernel, by decide +kernel, List.not_mem_nil⟩
  refine ⟨?_, fun horizon => ?_, fun horizon => ?_⟩
  · -- The line says another command, and it says only one.
    have hother {line : String} {command : Command} (h : Says line command)
        (hcommand : command ≠ .quit) : ¬∃ arguments, Asks line ["q", "quit"] arguments :=
      fun ⟨_, hquit⟩ => hcommand (Except.ok.inj (h.ofLine.symm.trans (Says.quit hquit).ofLine))
    simp only [List.forall_mem_cons, List.not_mem_nil, false_implies, implies_true, and_true]
    exact ⟨hother hrun (by decide), hother hstep (by decide)⟩
  · rw [performLine_of_said hrun]
    have hpatient : Watch.Patient viewer := fun v hv => absurd hv (Option.not_mem_none v)
    rw [Reply.answer?, perform, unfinished_of_circles hcircles hpatient, Bool.or_true, if_pos rfl]
  · have hanswer : (refused.step : Reply Replay Unit).answer? = none := by decide +kernel
    rw [performLine_of_said hstep]
    exact hanswer

end Session

end Debugger

end Chip8
