import Chip8.Debugger.Console
import Chip8.Proofs.Listing
import Chip8.Proofs.Pictures
import Chip8.Proofs.Sessions
import Chip8.Proofs.Shares

/-!
# Sessions can always be shown

Each panel of the dashboard may be refused for a reason of its own: a pixel for which there is no
glyph, a register that the snapshot lacks, a cell that memory lacks, counts without a total. A
well-formed session gives no such reason. So the dashboard is drawn after any command lines, in
whatever order, and at every frame of a timed run.

## Key results

- `Registers.exists_panel_eq_ok`, `HexDump.text_ram`: the panels
- `Dashboard.exists_ofSession_eq_ok`: the dashboard of a well-formed session
- `Session.enterAll_renders`: the dashboards of a session under any command lines
-/

namespace Chip8

/-! ## Registers -/

/-- A snapshot of all registers lacks none. -/
theorem Registers.exists_panel_eq_ok (v : Registers) {earlier : List Int}
    (h : earlier.length = 16) : ∃ text, v.panel (some earlier) = .ok text := by
  have hentry (r : Register) : ∃ text, v.panelEntry (some earlier) r = .ok text := by
    have hr : r.val < earlier.length := by
      rw [h]
      exact r.isLt
    simp only [panelEntry, List.getElem?_eq_getElem hr]
    exact ⟨_, rfl⟩
  have hrow (row : Fin 4) : ∃ line, (do
      let entries ← (panelRow row).mapM (v.panelEntry (some earlier))
      return String.intercalate "  " entries : Except RegisterError String) = .ok line := by
    obtain ⟨entries, hentries⟩ :=
      exists_mapM_eq_ok (l := panelRow row) fun r _ => hentry r
    -- Every entry of the row has its text, and so the row has its line.
    rw [hentries]
    exact ⟨_, rfl⟩
  obtain ⟨lines, hlines⟩ := exists_mapM_eq_ok (l := List.finRange 4) fun row _ => hrow row
  rw [panel, hlines]
  exact ⟨_, rfl⟩

/-! ## Memory -/

/-- A dump of the machine's memory has all its rows. -/
theorem HexDump.text_ram (m : Ram) (start rows : Int) :
    text m start rows = .ok (String.intercalate "\n" (List.ofFn fun i : Fin rows.toNat =>
      row (rowAddress start i) (m.block (rowAddress start i) 16))) := by
  have hrows : (List.ofFnM fun i : Fin rows.toNat => do
      let bytes ← m.block? (rowAddress start i).val 16
      return row (rowAddress start i) bytes : Except MemoryError (List String)) =
      .ok (List.ofFn fun i : Fin rows.toNat =>
        row (rowAddress start i) (m.block (rowAddress start i) 16)) := by
    -- On the machine's memory a block is never refused, as its addresses wrap around.
    simp only [Memory.block?_ram, Address.ofInt_val]
    exact List.ofFnM_pure
  rw [text]
  dsimp only
  rw [hrows]
  rfl

namespace Debugger

/-! ## The dashboard -/

variable {ρ : Type}

namespace Dashboard

/-- Of the lines of a listing those that are current stand out as such. -/
private theorem listedLine_style_eq_current_iff (breakpoints : List Address) (line : Line) :
    (listedLine breakpoints line).style = some .current ↔ line.current = true := by
  unfold listedLine
  dsimp only
  split
  · rename_i hcurrent
    exact ⟨fun _ => hcurrent, fun _ => rfl⟩
  · rename_i hnot
    refine ⟨fun h => ?_, fun hcurrent => absurd hcurrent hnot⟩
    split at h
    · cases h
    · cases h

/-- A dashboard shows the screen of a session, on which every pair of pixels has its glyph, and
    lists one current line, which is that of the next instruction. -/
structure Shows (d : Dashboard) (s : Session ρ) : Prop where
  screen : Picture.halfBlocks? (s.machine.screen.toLists.map (·.map Picture.Pixel.ofBool)) =
    .ok d.screen.text
  current : d.listing.filter (fun line => line.style = some .current) =
    [listedLine s.breakpoints (Listing.currentLine s.machine.memory s.machine.pc)]

/-- The listing of the dashboard has one current line. -/
private theorem filter_listing (m : Ram) (pc : Address) (breakpoints : List Address) :
    ((List.ofFn fun i : Fin listingLength => Listing.windowLine m pc.val listingLength i).map
        (listedLine breakpoints)).filter (fun line => line.style = some .current) =
      [listedLine breakpoints (Listing.currentLine m pc)] := by
  -- The style is decided by `current`, so that both filters keep the same lines.
  have htest : (fun line => decide ((listedLine breakpoints line).style = some .current)) =
      fun line : Line => line.current := by
    funext line
    rw [Bool.eq_iff_iff, decide_eq_true_iff]
    exact listedLine_style_eq_current_iff breakpoints line
  rw [List.filter_map]
  change ((List.ofFn _).filter
    fun line => decide ((listedLine breakpoints line).style = some .current)).map _ = _
  rw [htest, Listing.filter_current m pc (by decide) (by decide)]
  rfl

/-- A well-formed session has a dashboard, which shows it. -/
theorem exists_ofSession_eq_ok {s : Session ρ} (h : s.WellFormed) :
    ∃ d, ofSession s = .ok d ∧ d.Shows s := by
  obtain ⟨registers, hregisters⟩ := s.machine.registers.exists_panel_eq_ok h.previous.1
  have hlisting := Listing.window_ram s.machine.memory s.machine.pc.val listingLength
  have hdump := HexDump.text_ram s.machine.memory (viewAddress s).val memoryRows
  obtain ⟨statistics, hstatistics⟩ := Statistics.exists_text_ofTally_eq_ok h.counts
  -- Of all panels only these four can be refused.
  unfold ofSession
  dsimp only
  rw [hregisters, hlisting, hdump, hstatistics]
  exact ⟨_, rfl, Picture.halfBlocks?_ofBool _, filter_listing _ _ _⟩

end Dashboard

/-! ## Sessions under command lines -/

/-- What a user enters at a console: a line, how many frames of a run are watched before it is
    interrupted, and how many frames a run gets that nothing else ends. -/
structure Entry where
  line : String
  patience : Option Nat := none
  horizon : Nat := 0
deriving DecidableEq, Repr

namespace Session

variable [ByteSource ρ]

/-- Carries out what the user enters; every frame of a run is drawn. -/
def enter (s : Session ρ) (e : Entry) : Reply ρ (Except PanelError Dashboard) :=
  s.performLine (some { picture := Dashboard.ofSession, patience := e.patience }) e.horizon e.line

/-- Carries out one entry after the other. -/
def enterAll (s : Session ρ) (entries : List Entry) : Session ρ :=
  entries.foldl (fun s e => (s.enter e).session) s

/-- What every move preserves holds after any entries. -/
theorem enterAll_induction {P : Session ρ → Prop} (h : Preserved P) {s : Session ρ} (hs : P s)
    (entries : List Entry) : P (s.enterAll entries) := by
  -- Induction on the entries; what they show on the way is left out here.
  induction entries generalizing s with
  | nil => exact hs
  | cons e rest ih => exact ih (h.performLine hs _ _ _).session

omit [ByteSource ρ] in
/-- A session that begins about a machine with a program is well-formed. -/
private theorem wellFormed_opening {random : ρ} {program : List UInt8} {start : Machine ρ}
    {note : Note} (h : (Machine.fresh random).loadProgram program = .ok (start, note)) :
    (Conversation.opening start).WellFormed := by
  obtain ⟨-, _, hload⟩ | ⟨-, hrefused⟩ := (Machine.fresh random).loadProgram_cases program
  · rw [hload] at h
    cases h
    have hfirst : 0 ≤ (0 : Int) ∧ (0 : Int) < 10 := by decide
    -- The frame counters begin at zero, and there are no counts and no breakpoints yet.
    exact .of_parts ((Machine.wellFormed_fresh random).load _) nofun .nil rfl hfirst
  · rw [hrefused] at h
    cases h

/-- From the start with any program that is accepted, whatever is entered, the session stays
    well-formed, and its dashboard is drawn, with every pixel and one current line, which is that of
    the next instruction. The same holds of every frame that is drawn on the way. -/
theorem enterAll_renders {random : ρ} {program : List UInt8} {start : Machine ρ} {note : Note}
    (accepted : (Machine.fresh random).loadProgram program = .ok (start, note))
    (entries : List Entry) :
    let s := (Conversation.opening start).enterAll entries
    s.WellFormed ∧
    (∃ d, Dashboard.ofSession s = .ok d ∧ d.Shows s) ∧
    ∀ e, ∀ panels ∈ (s.enter e).shown,
      ∃ t : Session ρ, t.WellFormed ∧ ∃ d, panels = .ok d ∧ d.Shows t := by
  intro s
  have hs : s.WellFormed :=
    enterAll_induction preserved_wellFormed (wellFormed_opening accepted) entries
  refine ⟨hs, Dashboard.exists_ofSession_eq_ok hs, fun e panels hpanels => ?_⟩
  -- What was shown is a picture of a session in which every move's property holds.
  obtain ⟨_, hv, t, ht, hpicture⟩ :=
    (preserved_wellFormed.performLine hs _ _ _).shown panels hpanels
  cases hv
  obtain ⟨d, hd, hshows⟩ := Dashboard.exists_ofSession_eq_ok ht
  exact ⟨t, ht, d, hpicture.trans hd, hshows⟩

/-- A program loops through a key wait. The user sets a breakpoint, runs into it, watches a run and
    interrupts it, holds a key, and enters what is no command. -/
theorem enterAll_renders_interrupted :
    let program := [0x60, 0x09, 0xF0, 0x15, 0xF3, 0x0A, 0x12, 0x04]
    let entries : List Entry :=
      [{ line := "b 204" }, { line := "c" }, { line := "run 600", patience := some 2 },
        { line := "k 5" }, { line := "r 60 3" }, { line := "tick 2" }, { line := "dance" }]
    ∃ start note,
      (Machine.fresh (Replay.ofInts [7])).loadProgram program = .ok (start, note) ∧
      let s := (Conversation.opening start).enterAll entries
      (s.breakpoints = [0x204] ∧ s.machine.registers.read 3 = 5 ∧ s.machine.timers.delay = 6) ∧
      s.WellFormed ∧ ∃ d, Dashboard.ofSession s = .ok d ∧ d.Shows s := by
  intro program entries
  obtain ⟨-, note, hload⟩ | ⟨hlong, -⟩ :=
    (Machine.fresh (Replay.ofInts [7])).loadProgram_cases program
  · obtain ⟨hwell, hshown, -⟩ := enterAll_renders hload entries
    refine ⟨_, note, hload, ?_, hwell, hshown⟩
    decide +kernel
  · exact absurd hlong (by decide)

end Session

end Debugger

end Chip8
