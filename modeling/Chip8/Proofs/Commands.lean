import Chip8.Proofs.Drivers
import Chip8.Proofs.Grammar
import Chip8.Proofs.Sessions

/-!
# What commands touch

A command changes what it names and nothing else. Steps and runs leave alone what the user has set
up: breakpoints, held keys, the view and the size of a frame. Each of the other commands changes one
of these, and ticks change the timers. A line that says no command tells the user something, and
that is all.

## Key results

- `Session.goesOn_perform`: every command but one lets the session go on
- `Session.keptRunning_settings`, `Session.keptTimed_settings`: what runs leave alone
- `Session.performLine_machine`, `Session.performLine_settings`: which lines change what
- `Session.performLine_goesOn`: the verbs for leaving end the session, and no other line does
-/

namespace Chip8

/-! ## Refused draws -/

/-- Some state of the source has no byte, for this reason. -/
def ByteSource.Refuses (ρ : Type) [ByteSource ρ] (error : SourceError) : Prop :=
  ∃ source : ρ, draw? source = .error error

/-- An instruction that is broken off was refused a byte. -/
private theorem Machine.refuses_of_execute {ρ : Type} [ByteSource ρ] {m : Machine ρ}
    {i : Instruction} {error : SourceError} (h : m.execute i = .error (.source error)) :
    ByteSource.Refuses ρ error := by
  -- A return and a call can only fail with a fault, so that the draw is left.
  cases i <;> simp only [execute, reduceCtorEq] at h
  case ret => cases hp : m.stack.pop m.pc.val <;> rw [hp] at h <;> cases h
  case call => cases hp : m.stack.push (m.pc + 2).val m.pc.val <;> rw [hp] at h <;> cases h
  case random =>
    cases hd : ByteSource.draw? m.random with
    | ok drawn => rw [hd] at h; cases h
    | error refused =>
      rw [hd] at h
      cases h
      exact ⟨_, hd⟩

/-- A step that found no byte was refused one. -/
private theorem Machine.refuses_of_step {ρ : Type} [ByteSource ρ] {m : Machine ρ}
    {error : SourceError}
    (h : m.step.obstacle = some (.source error)) : ByteSource.Refuses ρ error := by
  obtain ⟨_, hfault, -⟩ | ⟨_, hsource, -, he⟩ := step_obstacle_cases h
  · cases hfault
  · cases hsource
    exact refuses_of_execute he

namespace Debugger

variable {ρ α : Type} {line : String} {command : Command}

/-! ## Keys -/

/-- Toggling changes the one key. -/
theorem get_toggle (states : KeyStates) (key k : Nibble) :
    (states.toggle key).get k = if k = key then !states.get k else states.get k := by
  -- `Vector.getElem_set` compares the values of keys, and not the keys.
  have hset : (Vector.set states key.val (!states[key]) key.isLt).get k =
      if key.val = k.val then !states[key] else states.get k := Vector.getElem_set ..
  rw [KeyStates.toggle, hset]
  by_cases hk : k = key
  · subst hk
    rw [if_pos rfl, if_pos rfl]
    rfl
  · rw [if_neg hk, if_neg fun heq => hk (Fin.ext heq.symm)]

/-! ## Replies -/

variable [ByteSource ρ] {s t : Session ρ} {w : Watch ρ α} {viewer : Option (Viewer ρ α)}
  {write : Notice.Writer} {error : SourceError}

/-- Why a command can be broken off: the source refuses a byte, or a notice cannot be worded. -/
inductive Failure.Explained (ρ : Type) [ByteSource ρ] (write : Notice.Writer) : Failure → Prop
  | source {error : SourceError} (refuses : ByteSource.Refuses ρ error) :
    Explained ρ write (.source error)
  | number {error : NumberError} {notice : Notice} (unwritten : write notice = .error error) :
    Explained ρ write (.number error)

/-- Where every notice can be worded, it is the source that breaks commands off. -/
theorem Failure.Explained.exists_source {failure : Failure} (h : failure.Explained ρ .plain) :
    ∃ error, failure = .source error ∧ ByteSource.Refuses ρ error := by
  cases h with
  | source refuses => exact ⟨_, rfl, refuses⟩
  | number unwritten => cases unwritten

/-- The session goes on after the reply, and the command was broken off only if a byte was
    refused. -/
structure Reply.GoesOn (r : Reply ρ α) : Prop where
  goesOn : r.goesOn = true
  failure : ∀ failure, r.failure = some failure → failure.Explained ρ .plain

/-- A command that nothing breaks off lets the session go on. -/
theorem Reply.GoesOn.of_eq {r : Reply ρ α} (hgoes : r.goesOn = true) (hfailure : r.failure = none) :
    r.GoesOn :=
  ⟨hgoes, fun failure h => by cases hfailure.symm.trans h⟩

namespace Session

/-- A step with the keys held was refused a byte if it found none. -/
private theorem refuses_of_stepWithKeys (h : s.stepWithKeys.2.1 = some (.source error)) :
    ByteSource.Refuses ρ error :=
  Machine.refuses_of_step (m := s.machine.hold s.held) h

/-- A step towards a frame was refused a byte if it found none. -/
private theorem refuses_of_advance (h : s.advance.2.1 = some (.source error)) :
    ByteSource.Refuses ρ error := by
  refine refuses_of_stepWithKeys (s := s) ?_
  unfold advance at h
  split at h
  · next hs => rw [hs]; exact h
  · cases h

/-- A step by command lets the session go on. -/
private theorem goesOn_step (s : Session ρ) : (s.step : Reply ρ α).GoesOn := by
  unfold step
  split
  · exact .of_eq rfl rfl
  · split
    · exact .of_eq rfl rfl
    -- The obstacle is a missing byte; the step itself says that it was refused.
    · next hs =>
      refine ⟨rfl, fun failure h => ?_⟩
      cases h
      exact .source (refuses_of_advance (s := s.remember) (by rw [hs]))
    · exact .of_eq rfl rfl

/-- A resumed run, from any of its steps on, lets the session go on. -/
private theorem goesOn_resumeFrom (limit : Int) (left done : Nat) (s : Session ρ)
    (notes : Array Note) :
    (resumeFrom limit left done s notes : Reply ρ α).GoesOn := by
  -- Induction on the steps left; the run ends here or goes on with the next step.
  induction left generalizing done s notes with
  | zero => exact .of_eq rfl rfl
  | succ left ih =>
    unfold resumeFrom
    split
    · exact .of_eq rfl rfl
    · next hs =>
      refine ⟨rfl, fun failure h => ?_⟩
      cases h
      exact .source (refuses_of_advance (by rw [hs]))
    · dsimp only
      split
      · exact .of_eq rfl rfl
      · split
        · exact .of_eq rfl rfl
        · exact ih _ _ _

/-- A resumed run lets the session go on. -/
private theorem goesOn_resume (s : Session ρ) (limit : Int) :
    (s.resume limit : Reply ρ α).GoesOn := by
  unfold resume
  split
  · exact .of_eq rfl rfl
  · exact goesOn_resumeFrom ..

end Session

namespace Watch

/-- What broke the run off, if anything did, can be explained. -/
def FailsFor (write : Notice.Writer) (w : Watch ρ α) : Prop :=
  ∀ failure, w.failure = some failure → failure.Explained ρ write

/-- A run that nothing broke off needs no explanation. -/
private theorem FailsFor.of_eq_none (h : w.failure = none) : w.FailsFor write :=
  fun failure hfailure => by cases h.symm.trans hfailure

/-- A showing breaks nothing off. -/
private theorem FailsFor.show? (h : w.FailsFor write) (viewer : Option (Viewer ρ α)) :
    (w.show? viewer).2.FailsFor write := by
  obtain ⟨shown, hshown⟩ := exists_show?_eq viewer w
  rw [hshown]
  exact h

/-- Telling the user something breaks the run off only if it cannot be worded. -/
theorem FailsFor.tell (h : w.FailsFor write) (notice : Notice) :
    (w.tell write notice).FailsFor write := by
  unfold Watch.tell
  cases hwrite : write notice with
  | error error =>
    intro failure hfailure
    cases hfailure
    exact .number hwrite
  | ok text => exact h

/-- An announcement breaks the run off only if it cannot be worded. -/
theorem FailsFor.announce (h : w.FailsFor write) (viewer : Option (Viewer ρ α)) (hz : Int)
    (notice : Notice) : (w.announce write viewer hz notice).2.FailsFor write := by
  unfold Watch.announce
  cases hwrite : write notice with
  | error error =>
    intro failure hfailure
    cases hfailure
    exact .number hwrite
  | ok text =>
    -- What was told is part of the session, of which `FailsFor` says nothing.
    have htold : ({ w with session := w.session.tell notice } : Watch ρ α).FailsFor write := h
    have hshow := htold.show? viewer
    dsimp only
    split
    · next after hs =>
      rw [hs] at hshow
      exact hshow.tell _
    · next after hs =>
      rw [hs] at hshow
      exact hshow

/-- Steps of a frame are broken off only if a byte is refused. -/
private theorem burst_failure (limit : Option Int) (left : Nat) (w : Watch ρ α) :
    (burst limit left w).2.failure = w.failure ∧
      ∀ error, (burst limit left w).1 = some (.obstacle (.source error)) →
        ByteSource.Refuses ρ error := by
  -- Induction on the steps left: each is told the keys and may be refused its byte.
  induction left generalizing w with
  | zero => exact ⟨rfl, fun error h => by cases h⟩
  | succ left ih =>
    unfold burst
    split
    · exact ⟨rfl, fun error h => by cases h⟩
    · split
      · next hs =>
        refine ⟨rfl, fun error h => ?_⟩
        cases h
        exact Session.refuses_of_stepWithKeys (by rw [hs])
      · dsimp only
        split
        · exact ⟨rfl, fun error h => by cases h⟩
        · exact ih _

/-- A frame is broken off only if a byte is refused or a notice cannot be worded. -/
private theorem FailsFor.frame (h : w.FailsFor write) (viewer : Option (Viewer ρ α)) (hz : Int)
    (limit : Option Int) (budget : Int) :
    (w.frame write viewer hz limit budget).2.FailsFor write := by
  obtain ⟨hkept, hrefused⟩ := burst_failure limit ((budget + hz) / 60).toNat
    { w with session := w.session.remember }
  have hburst : (burst limit ((budget + hz) / 60).toNat
      { w with session := w.session.remember }).2.FailsFor write := by
    rw [FailsFor, hkept]
    exact h
  unfold Watch.frame
  dsimp only
  split
  · next fault after hs =>
    rw [hs] at hburst
    exact hburst.announce viewer hz _
  · next error after hs =>
    rw [hs] at hrefused
    intro failure hfailure
    cases hfailure
    exact .source (hrefused error rfl)
  · next after hs =>
    rw [hs] at hburst
    exact hburst.announce viewer hz _
  · next after hs =>
    rw [hs] at hburst
    -- The tick and what is told behind it do not matter to what broke the run off.
    let session := { after.session with machine := after.session.machine.tick }
    have hticked : ({ after with session } : Watch ρ α).FailsFor write := hburst
    have hannounce := hticked.announce viewer hz (.running hz after.steps session.machine.pc)
    split
    · next shown hended =>
      rw [hended] at hannounce
      exact hannounce
    · next shown hgoes =>
      rw [hgoes] at hannounce
      split
      · exact hannounce.announce viewer hz _
      · exact hannounce

/-- A timed run is broken off only if a byte is refused or a notice cannot be worded. -/
private theorem FailsFor.runFrames (h : w.FailsFor write) (viewer : Option (Viewer ρ α)) (hz : Int)
    (limit : Option Int) (frames : Nat) (budget : Int) :
    (Watch.runFrames write viewer hz limit frames budget w).FailsFor write := by
  -- Induction on the frames; each of them hands on a run that `FailsFor` still explains.
  induction frames generalizing budget w with
  | zero => exact h
  | succ frames ih =>
    have hframe := h.frame viewer hz limit budget
    unfold Watch.runFrames
    split
    · next after hs =>
      rw [hs] at hframe
      exact hframe
    · next left after hs =>
      rw [hs] at hframe
      exact ih hframe left

end Watch

namespace Session

/-- A timed run lets the session go on. -/
private theorem goesOn_runAtSpeed (s : Session ρ) (hz : Int) (limit : Option Int)
    (viewer : Option (Viewer ρ α)) (horizon : Nat) :
    (s.runAtSpeed hz limit viewer horizon).GoesOn := by
  unfold runAtSpeed
  split
  · exact .of_eq rfl rfl
  · have hstart : ({ session := s } : Watch ρ α).FailsFor .plain := .of_eq_none rfl
    exact ⟨rfl, hstart.runFrames viewer hz limit _ 0⟩

/-- Every command but one lets the session go on. -/
theorem goesOn_perform (s : Session ρ) (viewer : Option (Viewer ρ α)) (horizon : Nat)
    (hcommand : command ≠ .quit) : (s.perform viewer horizon command).GoesOn := by
  cases command with
  | step => exact goesOn_step s
  | resume => exact goesOn_resume s _
  | run hz limit => exact goesOn_runAtSpeed s hz limit viewer horizon
  | quit => exact absurd rfl hcommand
  | _ => exact .of_eq rfl rfl

/-! ## What commands leave alone -/

/-- What the user has set up is the same in two sessions. -/
structure SameSettings (s t : Session ρ) : Prop where
  breakpoints : t.breakpoints = s.breakpoints
  held : t.held = s.held
  view : t.view = s.view
  stepsPerFrame : t.stepsPerFrame = s.stepsPerFrame

omit [ByteSource ρ] in
/-- A session has its own settings. -/
private theorem SameSettings.refl (s : Session ρ) : SameSettings s s := ⟨rfl, rfl, rfl, rfl⟩

omit [ByteSource ρ] in
/-- Sessions with the same settings and the same count of steps differ in the machine, the registers
    to compare with and the notice. -/
theorem SameSettings.eq (h : SameSettings s t)
    (hframe : t.frameSteps = s.frameSteps) :
    t = { s with machine := t.machine, previous := t.previous, notice := t.notice } := by
  obtain ⟨hbreakpoints, hheld, hview, hsize⟩ := h
  cases t
  cases hbreakpoints
  cases hheld
  cases hview
  cases hsize
  cases hframe
  rfl

/-- Timed runs keep the settings, and the count of steps of the current frame. -/
theorem keptTimed_settings (s : Session ρ) :
    KeptTimed fun t => SameSettings s t ∧ t.frameSteps = s.frameSteps where
  tell _ _ h := ⟨{ h.1 with }, h.2⟩
  remember _ h := ⟨{ h.1 with }, h.2⟩
  stepWithKeys _ h := ⟨{ h.1 with }, h.2⟩
  tick _ h := ⟨{ h.1 with }, h.2⟩

/-- All runs keep the settings. -/
theorem keptRunning_settings (s : Session ρ) : KeptRunning (SameSettings s) where
  tell _ _ h := { h with }
  remember _ h := { h with }
  stepWithKeys _ h := { h with }
  tick _ h := { h with }
  countStep _ h := by
    unfold countStep
    split
    · exact { h with }
    · exact { h with }

/-- A timed run changes no setting, and leaves the count of steps of the current frame alone. -/
theorem runAtSpeed_settings (s : Session ρ) (hz : Int) (limit : Option Int)
    (viewer : Option (Viewer ρ α)) (horizon : Nat) (write : Notice.Writer := .plain) :
    let t := (s.runAtSpeed hz limit viewer horizon write).session
    SameSettings s t ∧ t.frameSteps = s.frameSteps :=
  ((keptTimed_settings s).runAtSpeed ⟨.refl s, rfl⟩ hz limit viewer horizon write).session

end Session

omit [ByteSource ρ] in
/-- Ticks change nothing but the timers. -/
theorem exists_ticks_eq (m : Machine ρ) (count : Int) :
    ∃ timers, m.ticks count = { m with timers } := by
  have htick (m : Machine ρ) : ∃ timers, m.tick = { m with timers } := by
    unfold Machine.tick
    split
    · exact ⟨m.timers, rfl⟩
    · exact ⟨m.timers.tick, rfl⟩
  have hrunDown (count : Nat) (m : Machine ρ) : ∃ timers, m.runDown count = { m with timers } := by
    -- Every tick replaces the timers, so that the last ones are those of the whole count.
    induction count generalizing m with
    | zero => exact ⟨m.timers, rfl⟩
    | succ count ih =>
      unfold Machine.runDown
      split
      · exact ⟨m.timers, rfl⟩
      · obtain ⟨timers, hrest⟩ := ih m.tick
        obtain ⟨first, hfirst⟩ := htick m
        exact ⟨timers, by rw [hrest, hfirst]⟩
  unfold Machine.ticks
  split
  · exact ⟨m.timers, rfl⟩
  · exact hrunDown count.toNat m

/-! ## Command lines -/

namespace Session

open Command

/-- A line is refused, or what it says is done. -/
theorem performLine_cases (s : Session ρ) (viewer : Option (Viewer ρ α)) (horizon : Nat)
    (line : String) :
    (∃ refusal, ofLine line = .error refusal ∧
      s.performLine viewer horizon line = { session := s.tell (.refused refusal) }) ∨
    (∃ command, Says line command ∧
      s.performLine viewer horizon line = s.perform viewer horizon command) := by
  cases hline : ofLine line with
  | error refusal => exact .inl ⟨refusal, rfl, by rw [performLine, hline]⟩
  | ok command => exact .inr ⟨command, said_of_ofLine hline, by rw [performLine, hline]⟩

/-- What a line says is done. -/
theorem performLine_of_said (h : Says line command) (s : Session ρ)
    (viewer : Option (Viewer ρ α)) (horizon : Nat) :
    s.performLine viewer horizon line = s.perform viewer horizon command := by
  rw [performLine, h.ofLine]

/-- The machine, the registers to compare with and the count of steps stay as they are, or the line
    asks for steps, a run or ticks. -/
theorem performLine_machine (s : Session ρ) (viewer : Option (Viewer ρ α)) (horizon : Nat)
    (line : String) :
    let t := (s.performLine viewer horizon line).session
    (t.machine = s.machine ∧ t.previous = s.previous ∧ t.frameSteps = s.frameSteps) ∨
    Says line .step ∨ Says line .resume ∨ (∃ count, Says line (.tick count)) ∨
      ∃ hz limit, Says line (.run hz limit) := by
  obtain ⟨refusal, -, hr⟩ | ⟨command, hsaid, hr⟩ := s.performLine_cases viewer horizon line
  · rw [hr]
    exact .inl ⟨rfl, rfl, rfl⟩
  · rw [hr]
    cases command with
    | step => exact .inr (.inl hsaid)
    | resume => exact .inr (.inr (.inl hsaid))
    | tick count => exact .inr (.inr (.inr (.inl ⟨count, hsaid⟩)))
    | run hz limit => exact .inr (.inr (.inr (.inr ⟨hz, limit, hsaid⟩)))
    | _ => exact .inl ⟨rfl, rfl, rfl⟩

/-- The settings stay as they are, or the line names one that is changed. -/
theorem performLine_settings (s : Session ρ) (viewer : Option (Viewer ρ α)) (horizon : Nat)
    (line : String) :
    let t := (s.performLine viewer horizon line).session
    SameSettings s t ∨
    (∃ key, Says line (.key key) ∧ t = s.toggleKey key) ∨
    (∃ a, Says line (.breakpoint a) ∧ t = s.toggleBreakpoint a) ∨
    ∃ view, Says line (.view view) ∧ t = s.setView view := by
  obtain ⟨refusal, -, hr⟩ | ⟨command, hsaid, hr⟩ := s.performLine_cases viewer horizon line
  · rw [hr]
    exact .inl ⟨rfl, rfl, rfl, rfl⟩
  · rw [hr]
    cases command with
    -- Only runs need their lemma; the other commands change a field that is in sight.
    | step =>
      have hkept : Keeps (SameSettings s) viewer s.step.session s.step.shown :=
        (keptRunning_settings s).step (.refl s)
      exact .inl hkept.session
    | resume =>
      have hkept : Keeps (SameSettings s) viewer s.resume.session s.resume.shown :=
        (keptRunning_settings s).resume (.refl s) _
      exact .inl hkept.session
    | run hz limit => exact .inl (s.runAtSpeed_settings hz limit viewer horizon).1
    | key key => exact .inr (.inl ⟨key, hsaid, rfl⟩)
    | breakpoint a => exact .inr (.inr (.inl ⟨a, hsaid, rfl⟩))
    | view view => exact .inr (.inr (.inr ⟨view, hsaid, rfl⟩))
    | _ => exact .inl ⟨rfl, rfl, rfl, rfl⟩

/-- A line that names no command to be carried out only tells something. -/
theorem performLine_of_idle (h : Text.words line = [] ∨
      (∃ arguments, Asks line ["h", "help"] arguments) ∨ Faulty line) (s : Session ρ)
    (viewer : Option (Viewer ρ α)) (horizon : Nat) :
    ∃ notice, s.performLine viewer horizon line = { session := s.tell notice } := by
  obtain hempty | ⟨arguments, hhelp⟩ | hfaulty := h
  · exact ⟨.help, performLine_of_said (.empty hempty) s viewer horizon⟩
  · exact ⟨.help, performLine_of_said (.help hhelp) s viewer horizon⟩
  · obtain ⟨refusal, hrefused⟩ := hfaulty.refused
    exact ⟨.refused refusal, by rw [performLine, hrefused]⟩

/-- Exactly the verbs for leaving end the session, at once. -/
theorem performLine_goesOn (s : Session ρ) (viewer : Option (Viewer ρ α)) (horizon : Nat)
    (line : String) :
    (s.performLine viewer horizon line).GoesOn ∨
    ((∃ arguments, Asks line ["q", "quit"] arguments) ∧
      s.performLine viewer horizon line = { session := s, goesOn := false }) := by
  obtain ⟨refusal, -, hr⟩ | ⟨command, hsaid, hr⟩ := s.performLine_cases viewer horizon line
  · rw [hr]
    exact .inl (.of_eq rfl rfl)
  · rw [hr]
    -- The verb for leaving is the only one whose command ends the session.
    by_cases hquit : command = .quit
    · subst hquit
      cases hsaid with
      | @quit arguments words => exact .inr ⟨⟨arguments, words⟩, rfl⟩
    · exact .inl (goesOn_perform s viewer horizon hquit)

end Session

end Debugger

end Chip8
