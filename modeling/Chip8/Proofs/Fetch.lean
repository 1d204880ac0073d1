import Chip8.Proofs.Accounting
import Chip8.Proofs.Assembly
import Chip8.Proofs.Footprint
import Chip8.Proofs.Listing
import Chip8.Proofs.Signals
import Mathlib.Data.List.GetD

/-!
# What is listed is what is executed

A program is read in three places: its listing takes its bytes in pairs and pads the last one, a
window of memory reads words around an address, and a step fetches the word at its own. The three
agree. A program that is loaded into a new machine stands in memory as it is listed, a zero behind
an odd last byte included, as nothing but zeros lies above the font. The middle line of a window is
the line of its address, which for the address of the machine shows the word that is fetched next.
And as long as no word stores into memory, that line stays the same.

## Key results

- `Memory.getElem_overlay`, `Memory.read_fontMemory`: what memory holds after a load
- `Listing.ofProgram_word`: the words of a program's listing
- `Listing.window_middle`: the middle line of a window
- `Instruction.prefix_text_iff`: which texts are those of undefined words
- `Machine.read_receiveAll`: memory along runs that store nothing
- `Machine.listing_eq_execution`: the three readers agree
-/

namespace Chip8

/-! ## Memory after a load -/

namespace Memory

/-- Bytes that are laid over cells are found there, and other cells keep theirs. -/
theorem getElem_overlay {count : Nat} (cells : Vector UInt8 count) (start : Nat)
    (bytes : List UInt8) (i : Nat) (h : i < count) :
    (overlay cells start bytes)[i] =
      if start ≤ i then bytes.getD (i - start) cells[i] else cells[i] := by
  -- Induction on the bytes: a cell is before the first of them, under it or behind it.
  induction bytes generalizing cells start with
  | nil => simp only [overlay, List.getD_nil, ite_self]
  | cons byte rest ih =>
    rw [overlay, ih]
    obtain hlt | rfl | hgt := Nat.lt_trichotomy i start
    · rw [if_neg (by omega), if_neg (by omega), Vector.getElem_setIfInBounds_ne _ (by omega)]
    · rw [if_neg (by omega), if_pos (Nat.le_refl i), Nat.sub_self]
      simp
    · obtain ⟨k, rfl⟩ : ∃ k, i = start + 1 + k := ⟨i - start - 1, by omega⟩
      have hhere : start + 1 + k - (start + 1) = k := by omega
      have hbehind : start + 1 + k - start = k + 1 := by omega
      rw [if_pos (by omega), if_pos (by omega), hhere, hbehind, List.getD_cons_succ,
        Vector.getElem_setIfInBounds_ne _ (by omega)]

/-- A load, read back byte by byte. -/
theorem read_overlay (m : Ram) (start : Nat) (bytes : List UInt8) (a : Address) :
    Memory.read ⟨overlay m.cells start bytes⟩ a =
      if start ≤ a.val then bytes.getD (a.val - start) (m.read a) else m.read a :=
  getElem_overlay m.cells start bytes a.val a.isLt

end Memory

/-- Above the font there are zeros. -/
private theorem Machine.read_fontMemory {a : Address} (h : programStart ≤ a.val) :
    fontMemory.read a = 0 := by
  -- The font ends below the program, so that only the blank memory is found there.
  have hfont : Font.glyphs.length ≤ a.val - Font.base := by
    simp only [programStart] at h
    simp only [Font.length_glyphs, Font.glyphSize, Font.base]
    omega
  rw [fontMemory, Memory.read_overlay, List.getD_eq_default _ _ hfont, Memory.read_blank, ite_self]

/-- A program in a new machine: its bytes, and zeros behind them. -/
private theorem Machine.read_loaded (program : List UInt8) {a : Address}
    (h : programStart ≤ a.val) :
    Memory.read ⟨Memory.overlay fontMemory.cells programStart program⟩ a =
      program.getD (a.val - programStart) 0 := by
  rw [Memory.read_overlay, if_pos h, read_fontMemory h]

/-! ## Listings -/

namespace Listing

/-- The lines of a program's listing have its bytes in pairs, with a zero behind an odd last one. -/
theorem ofProgram_word {base : Int} {program : List UInt8} {i : Nat} {line : Line}
    (h : (ofProgram base program)[i]? = some line) :
    2 * i < program.length ∧
      line.word = .ofBytes (program.getD (2 * i) 0) (program.getD (2 * i + 1) 0) := by
  -- Induction along the program, two bytes at a time.
  induction base, program using ofProgram.induct generalizing i with
  | case1 base => cases h
  | case2 base high =>
    cases i with
    | zero =>
      cases h
      exact ⟨Nat.one_pos, rfl⟩
    | succ i => cases h
  | case3 base high low rest ih =>
    cases i with
    | zero =>
      cases h
      exact ⟨Nat.succ_pos _, rfl⟩
    | succ i =>
      obtain ⟨hlt, hword⟩ := ih h
      exact ⟨by rw [List.length_cons, List.length_cons]; omega, hword⟩

/-- The middle line of a window of `count` words around an address. -/
def Middle (m : Ram) (center : Int) (count : Nat) (line : Line) : Prop :=
  ∃ lines, window m center count = .ok lines ∧ lines[count / 2]? = some line

/-- The middle line of a window is the line of the address that was asked for. -/
theorem window_middle (m : Ram) (a : Address) {count : Nat} (hcount : 1 ≤ count) :
    Middle m a.val count (currentLine m a) := by
  refine ⟨_, window_ram m a.val count, ?_⟩
  -- Around the middle line, halving by floor division and halving a number are the same.
  have hfdiv : (count : Int).fdiv 2 = (count / 2 : Nat) := by
    rw [Int.fdiv_eq_ediv_of_nonneg _ (by decide)]
    rfl
  have hsmall : count / 2 < count := Nat.div_lt_self hcount (by decide)
  have hmiddle : (((count / 2 : Nat) : Int) - (count : Int).fdiv 2) % 2048 = 0 := by
    rw [hfdiv, Int.sub_self]
    rfl
  rw [List.getElem?_eq_getElem (by rw [List.length_ofFn]; exact hsmall), List.getElem_ofFn,
    windowLine_of_current hmiddle]

end Listing

/-- The texts of undefined words begin with a mark of their own. -/
theorem Instruction.prefix_text_iff (i : Instruction) :
    "DW ".toList <+: i.text.toList ↔ i.mnemonic = "UNKNOWN" := by
  cases i with
  | alu op x y => cases op <;> simp [text, mnemonic, registerForm, aluText]
  | _ => simp [text, mnemonic, byteForm, registerForm]

/-! ## Runs that store nothing -/

namespace Word

/-- The words `Fx33` and `Fx55`, which store into memory. -/
def Stores (w : Word) : Prop :=
  w.family = 0xF ∧ (w.kk = 0x33 ∨ w.kk = 0x55)

instance (w : Word) : Decidable w.Stores :=
  inferInstanceAs (Decidable (w.family = 0xF ∧ (w.kk = 0x33 ∨ w.kk = 0x55)))

/-- A word that does not store writes no cell. -/
private theorem cellsWritten_eq_zero {w : Word} (h : ¬w.Stores) : w.cellsWritten = 0 := by
  rw [cellsWritten, if_neg fun hw => h ⟨hw.1, .inl hw.2⟩, if_neg fun hw => h ⟨hw.1, .inr hw.2⟩]

end Word

namespace Machine

variable {ρ : Type} [ByteSource ρ] {m : Machine ρ}

/-- No step among the signals executes a word that stores. -/
def NeverStores (m : Machine ρ) : List Signal → Prop
  | [] => True
  | signal :: rest =>
    (signal = .step → m.fault = none → ¬m.currentWord.Stores) ∧ (m.receive signal).NeverStores rest

instance decidableNeverStores (m : Machine ρ) :
    (signals : List Signal) → Decidable (m.NeverStores signals)
  | [] => isTrue trivial
  | signal :: rest =>
    have := decidableNeverStores (m.receive signal) rest
    inferInstanceAs (Decidable ((signal = .step → m.fault = none → ¬m.currentWord.Stores) ∧
      (m.receive signal).NeverStores rest))

/-- The first part of a run that stores nothing stores nothing. -/
private theorem NeverStores.of_append {first last : List Signal}
    (h : m.NeverStores (first ++ last)) :
    m.NeverStores first := by
  induction first generalizing m with
  | nil => trivial
  | cons signal rest ih => exact ⟨h.1, ih h.2⟩

/-- A step leaves memory alone unless its word stores. -/
private theorem read_step (h : m.fault = none → ¬m.currentWord.Stores) (a : Address) :
    m.step.machine.memory.read a = m.memory.read a := by
  -- A step that does not complete stores a fault at most; one that does keeps to its footprint.
  cases ho : m.step.obstacle with
  | some obstacle =>
    obtain ⟨_, hm⟩ := exists_machine_eq_of_obstacle ho
    rw [hm]
  | none =>
    have hcells := Word.cellsWritten_eq_zero (h (step_of_completed ho).1)
    obtain hsame | ⟨k, hk, -⟩ := (step_footprint ho).1.memory a
    · exact hsame
    · omega

/-- Runs that store nothing leave memory alone. -/
theorem read_receiveAll {signals : List Signal} (h : m.NeverStores signals) (a : Address) :
    (m.receiveAll signals).memory.read a = m.memory.read a := by
  -- Induction on the signals; ticks and keys never touch memory.
  induction signals generalizing m with
  | nil => rfl
  | cons signal rest ih =>
    obtain ⟨hstep, hrest⟩ := h
    rw [receiveAll_cons, ih hrest]
    cases signal with
    | step => exact read_step (hstep rfl) a
    | tick =>
      show m.tick.memory.read a = _
      unfold tick
      split <;> rfl
    | keys states =>
      obtain ⟨keys, hkeys⟩ := m.receive_keys states
      rw [hkeys]
      rfl

/-! ## The three readers -/

/-- The lines of a program that fits have the words that its load leaves at their addresses. -/
private theorem word_of_mem_ofProgram {program : List UInt8} (hfits : program.length ≤ programLimit)
    {line : Line} (h : line ∈ Listing.ofProgram programStart program) :
    ∃ a : Address, line.address = a.val ∧
      Memory.word ⟨Memory.overlay fontMemory.cells programStart program⟩ a = line.word := by
  obtain ⟨i, hi⟩ := List.mem_iff_getElem?.1 h
  obtain ⟨haddress, -⟩ := Listing.getElem?_ofProgram hi
  obtain ⟨hlt, hword⟩ := Listing.ofProgram_word hi
  simp only [programLimit, programStart] at hfits
  have hbound : programStart + 2 * i + 1 < 4096 := by
    simp only [programStart]
    omega
  let a : Address := ⟨programStart + 2 * i, by omega⟩
  -- The address is even, so that the next one is not that of the lowest cell.
  have hnext : (a + 1).val = programStart + (2 * i + 1) := by
    rw [Fin.val_add_one_of_lt' hbound]
    rfl
  refine ⟨a, haddress, ?_⟩
  rw [hword, Memory.word, read_loaded program (Nat.le_add_right _ _),
    read_loaded program (by rw [hnext]; exact Nat.le_add_right _ _), hnext, Nat.add_sub_cancel_left,
    Nat.add_sub_cancel_left]

/-- A step that returns counts its instruction, and it reports an unknown word exactly if the
    instruction is one. -/
private theorem step_of_ok_report {m : Machine ρ} {reported : Outcome}
    (h : m.step.result = .ok reported) :
    m.step.machine.statistics = m.statistics.count m.current.mnemonic ∧
      (reported = .unknownOpcode ↔ m.current.mnemonic = "UNKNOWN") := by
  -- Only a step that completes returns, and completing it counts its instruction.
  obtain ⟨_, _, hs⟩ | ⟨_, _, _, hs⟩ | ⟨_, _, _, hs⟩ | ⟨_, e, he, hs⟩ := m.step_cases
  · rw [hs] at h; cases h
  · rw [hs] at h; cases h
  · rw [hs] at h; cases h
  · rw [hs] at h ⊢
    cases h
    obtain ⟨-, -, hstatistics, -, -⟩ := execute_bookkeeping he
    exact ⟨by simp only [complete, hstatistics], outcome_eq_unknownOpcode_iff _ _⟩

/-- Listings show what is executed.

    A program that fits is listed as it stands in a new machine after its load: around the address
    of each of its lines, a window of any size shows the same address, word and text.

    Around the address of a machine that runs, the middle line of a window is current, and its word
    is the word that is fetched next. If the step completes, it counts the instruction of that word,
    and it reports an unknown word exactly if the text begins like that of one.

    Along a run that stores nothing, the middle line is the same whenever the machine comes to the
    same address, whatever the sizes of the windows. -/
theorem listing_eq_execution :
    (∀ (random : ρ) (program : List UInt8), program.length ≤ programLimit →
      ∃ m note, (fresh random).loadProgram program = .ok (m, note) ∧
        ∀ line ∈ Listing.ofProgram programStart program, ∀ count, 1 ≤ count →
          ∃ shown, Listing.Middle m.memory line.address count shown ∧
            shown.address = line.address ∧ shown.word = line.word ∧ shown.text = line.text) ∧
    (∀ m : Machine ρ, m.fault = none → ∀ count, 1 ≤ count →
      ∃ shown, Listing.Middle m.memory m.pc.val count shown ∧ shown.current = true ∧
        shown.address = m.pc.val ∧ m.memory.word? m.pc.val = .ok shown.word ∧
        m.currentWord = shown.word ∧
        ∀ outcome, m.step.result = .ok outcome →
          m.step.machine.statistics =
            m.statistics.count (Instruction.ofWord shown.word).mnemonic ∧
          (outcome = .unknownOpcode ↔ "DW ".toList <+: shown.text.toList)) ∧
    (∀ (m : Machine ρ) (signals : List Signal), m.NeverStores signals →
      ∀ first second : List Signal, first <+: signals → second <+: signals →
        (m.receiveAll first).pc = (m.receiveAll second).pc →
        ∀ count count', 1 ≤ count → 1 ≤ count' → ∃ shown,
          Listing.Middle (m.receiveAll first).memory (m.receiveAll first).pc.val count shown ∧
          Listing.Middle (m.receiveAll second).memory (m.receiveAll second).pc.val count'
            shown) := by
  refine ⟨?_, ?_, ?_⟩
  -- A load lays the program over the font, where the listing finds its words.
  · intro random program hfits
    obtain ⟨-, note, hload⟩ | ⟨hlong, -⟩ := (fresh random).loadProgram_cases program
    · refine ⟨_, note, hload, fun line hline count hcount => ?_⟩
      obtain ⟨a, haddress, hword⟩ := word_of_mem_ofProgram hfits hline
      refine ⟨_, haddress ▸ Listing.window_middle _ a hcount, haddress.symm, hword, ?_⟩
      simp only [Line.text, Listing.currentLine, fresh, hword]
    · exact absurd hfits (Nat.not_le_of_lt hlong)
  · intro m running count hcount
    refine ⟨_, Listing.window_middle m.memory m.pc hcount, rfl, rfl, m.word?_pc, rfl, ?_⟩
    intro outcome hresult
    obtain ⟨hstatistics, hunknown⟩ := step_of_ok_report hresult
    exact ⟨hstatistics, hunknown.trans (Instruction.prefix_text_iff _).symm⟩
  -- Both visits are parts of the same run, and memory is at both what it was in the beginning.
  · rintro m signals hspares first second ⟨rest, rfl⟩ ⟨rest', hsecond⟩ hpc count count' hcount
      hcount'
    have hmemory (a : Address) : (m.receiveAll first).memory.read a =
        (m.receiveAll second).memory.read a := by
      rw [read_receiveAll hspares.of_append, read_receiveAll (hsecond ▸ hspares).of_append]
    refine ⟨_, Listing.window_middle _ _ hcount, ?_⟩
    have hline : Listing.currentLine (m.receiveAll first).memory (m.receiveAll first).pc =
        Listing.currentLine (m.receiveAll second).memory (m.receiveAll second).pc := by
      simp only [Listing.currentLine, Memory.word, hmemory, hpc]
    rw [hline]
    exact Listing.window_middle _ _ hcount'

/-- A loop over two instructions, with one more byte behind it: the byte is listed with a zero, the
    first word is fetched and counted as it is listed, and it is listed the same when the loop comes
    back to it. -/
theorem listing_eq_execution_oddLoop :
    let program := [0x60, 0x07, 0x12, 0x00, 0xD3]
    ∃ m note, (fresh (Replay.ofInts [7])).loadProgram program = .ok (m, note) ∧
      (∃ shown, Listing.Middle m.memory 0x204 4 shown ∧ shown.address = 0x204 ∧
        shown.word = .ofBytes 0xD3 0x00) ∧
      (∃ shown, Listing.Middle m.memory m.pc.val 1 shown ∧ m.currentWord = shown.word ∧
        m.step.machine.statistics =
          m.statistics.count (Instruction.ofWord shown.word).mnemonic ∧
        ¬"DW ".toList <+: shown.text.toList) ∧
      ∃ shown, Listing.Middle m.memory m.pc.val 2 shown ∧
        Listing.Middle (m.receiveAll [.step, .tick, .step]).memory 0x200 5 shown := by
  intro program
  obtain ⟨hloaded, hfetched, hvisits⟩ := @listing_eq_execution Replay _
  obtain ⟨m, note, hload, hlisted⟩ := hloaded (Replay.ofInts [7]) program (by decide)
  obtain ⟨-, _, hstart⟩ | ⟨hlong, -⟩ :=
    (fresh (Replay.ofInts [7])).loadProgram_cases program
  -- The loop comes back to its first word behind a step, a tick and another step.
  · have hm := (Prod.mk.inj (Except.ok.inj (hload.symm.trans hstart))).1
    refine ⟨m, note, hload, ?_, ?_, ?_⟩
    · obtain ⟨shown, hmiddle, haddress, hword, -⟩ :=
        hlisted { address := 0x204, word := .ofBytes 0xD3 0x00, current := false } (by decide) 4
          (by decide)
      exact ⟨shown, hmiddle, haddress, hword⟩
    · obtain ⟨shown, hmiddle, -, -, -, hword, hstep⟩ :=
        hfetched m (by rw [hm]; rfl) 1 (by decide)
      obtain ⟨hcounted, hunknown⟩ := hstep .executed (by rw [hm]; decide +kernel)
      exact ⟨shown, hmiddle, hword, hcounted, fun h => absurd (hunknown.2 h) (by decide)⟩
    · have hback : (m.receiveAll [.step, .tick, .step]).pc = 0x200 := by
        rw [hm]
        decide +kernel
      have hsame := hvisits m [.step, .tick, .step] (by rw [hm]; decide +kernel) []
        [.step, .tick, .step] List.nil_prefix (List.prefix_refl _) (by rw [hm]; decide +kernel) 2 5
        (by decide) (by decide)
      rw [hback] at hsame
      exact hsame
  · exact absurd hlong (by decide)

end Machine

end Chip8
