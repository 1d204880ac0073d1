import Chip8.Proofs.Fetch
import Chip8.Proofs.Transfers

/-!
# Bulk loads

A bulk load replaces a run of cells at once. It is given by position and does not wrap, while single
bytes, words and blocks are read by addresses that do. A run that would leave memory is refused
before a cell is touched; any other takes the place of as many cells as it has bytes, so that the
row of cells keeps its length, and it is found by every address that leads to one of its cells.

## Key results

- `Memory.splice`, `Memory.toList_overlay`: the cells of a load, cut out and put in
- `Memory.Holds`, `Memory.load?_of_fits`: what memory holds after a load
- `Memory.block_add`, `Memory.word?_eq`: blocks and words
- `Machine.load_allOrNothing`: loads of a memory and of a machine
-/

namespace Chip8

namespace Memory

variable {m : Ram} {start : Int} {bytes : List UInt8}

/-! ## Cells that are replaced -/

/-- Cuts as many cells out from `start` on as there are bytes, and puts the bytes in. A run that
    reaches past the last cell makes the row longer. -/
def splice (cells : List UInt8) (start : Nat) (bytes : List UInt8) : List UInt8 :=
  cells.take start ++ bytes ++ cells.drop (start + bytes.length)

/-- A run inside the row keeps its length. -/
private theorem length_splice {cells : List UInt8} {start : Nat}
    (h : start + bytes.length ≤ cells.length) :
    (splice cells start bytes).length = cells.length := by
  simp only [splice, List.length_append, List.length_take, List.length_drop]
  omega

/-- Laying bytes over cells one after the other replaces the run at once. -/
theorem toList_overlay {count start : Nat} (cells : Vector UInt8 count)
    (h : start + bytes.length ≤ count) :
    (overlay cells start bytes).toList = splice cells.toList start bytes := by
  -- Induction on the bytes; the first one becomes the last cell in front of the others.
  induction bytes generalizing cells start with
  | nil => simp only [overlay, splice, List.append_nil, List.length_nil, Nat.add_zero,
      List.take_append_drop]
  | cons byte rest ih =>
    rw [List.length_cons] at h
    have hset : (cells.setIfInBounds start byte).toList = cells.toList.set start byte := by simp
    have hlength : start < cells.toList.length := by
      rw [Vector.length_toList]
      omega
    -- The first byte joins the cells in front, and the cells behind the run are not touched by it.
    have hfront : (cells.toList.set start byte).take (start + 1) =
        cells.toList.take start ++ [byte] := by
      rw [List.take_add_one, List.take_set_of_le (Nat.le_refl start),
        List.getElem?_set_self hlength]
      rfl
    have hbehind : (cells.toList.set start byte).drop (start + 1 + rest.length) =
        cells.toList.drop (start + (rest.length + 1)) := by
      rw [List.drop_set_of_lt (by omega), Nat.add_assoc, Nat.add_comm 1]
    rw [overlay, ih _ (by omega), hset, splice, hfront, hbehind, splice, List.length_cons,
      List.append_assoc _ [byte]]
    rfl

/-! ## What a load leaves in memory -/

/-- The memory holds the bytes from `start` on and otherwise what the old one held: its cells are
    those of the old one with the run replaced, as many as before; every address that leads into
    the run finds its byte, and every other address what was there. -/
structure Holds (memory old : Ram) (start : Int) (bytes : List UInt8) : Prop where
  cells : memory.cells.toList = splice old.cells.toList start.toNat bytes
  size : memory.cells.toList.length = 4096
  inside : ∀ (i : Nat) byte, bytes[i]? = some byte →
    ∀ a : Int, a % 4096 = start + i → memory.get? a = .ok byte
  outside : ∀ a : Int, a % 4096 < start ∨ start + bytes.length ≤ a % 4096 →
    memory.get? a = old.get? a

/-- A run that leaves memory is refused. -/
private theorem load?_of_leaves (m : Ram) (h : start < 0 ∨ 4096 < start + bytes.length) :
    m.load? start bytes = .error (.segment bytes.length start) :=
  if_pos h

/-- A run that fits is loaded. -/
theorem load?_of_fits (m : Ram) (h : ¬(start < 0 ∨ 4096 < start + bytes.length)) :
    ∃ memory, m.load? start bytes = .ok memory ∧ memory.Holds m start bytes := by
  have hfits : start.toNat + bytes.length ≤ 4096 := by omega
  have hcells := toList_overlay m.cells hfits
  have hsize : (overlay m.cells start.toNat bytes).toList.length = 4096 := by
    have hold : m.cells.toList.length = 4096 := Vector.length_toList
    rw [hcells, length_splice (hold.symm ▸ hfits), hold]
  refine ⟨⟨overlay m.cells start.toNat bytes⟩, if_neg h, hcells, hsize,
    fun i byte hbyte a ha => ?_, fun a ha => ?_⟩
  · have hval := Address.val_ofInt a
    -- An address that leads into the run is in its place modulo 4096.
    have hplace : (Address.ofInt a).val - start.toNat = i := by omega
    rw [get?_ram, read_overlay, if_pos (by omega), hplace, List.getD_eq_getElem?_getD, hbyte,
      Option.getD_some]
  -- Any other address is in front of the run or behind its last byte.
  · have hval := Address.val_ofInt a
    rw [get?_ram, get?_ram, read_overlay]
    split
    · rw [List.getD_eq_default _ _ (by omega)]
    · rfl

/-! ## Blocks and words -/

/-- A block is read in two parts. -/
theorem block_add (m : Ram) (a : Address) (k n : Nat) :
    m.block a (k + n) = m.block a k ++ m.block (a + Fin.ofNat 4096 k) n := by
  -- Counting on from an address and counting on from a later one meet modulo 4096.
  have hnext (i : Nat) : a + Fin.ofNat 4096 (k + i) = a + Fin.ofNat 4096 k + Fin.ofNat 4096 i := by
    apply Fin.ext
    simp only [Fin.val_add, Fin.val_ofNat]
    omega
  simp only [block, List.range_add, List.map_append, List.map_map, Function.comp_def, hnext]

/-- Reading a block, byte by byte. -/
private theorem cells_of_mem_block? (m : Ram) (a : Int) {n i : Nat} {byte : UInt8}
    (h : (m.block (Address.ofInt a) n)[i]? = some byte) :
    m.cells.toList[((a + i) % 4096).toNat]? = some byte := by
  obtain ⟨hi, rfl⟩ := List.getElem?_eq_some_iff.1 h
  rw [getElem_block, ← Address.ofInt_add]
  exact m.getElem?_cells (Address.ofInt (a + i))

/-- A word is made of the first two bytes of a block, the high one first. -/
theorem word?_eq (m : Ram) (a : Int) (n : Nat) :
    ∃ high low rest, m.block (Address.ofInt a) (n + 2) = high :: low :: rest ∧
      m.word? a = .ok (.ofBytes high low) := by
  have hnext : Address.ofInt (a + 1) = Address.ofInt a + 1 := Address.ofInt_add a 1
  refine ⟨_, _, m.block (Address.ofInt a + 1 + 1) n, by rw [block_succ, block_succ], ?_⟩
  rw [word?, get?_ram, get?_ram, hnext]
  rfl

end Memory

namespace Machine

variable {ρ : Type} [ByteSource ρ]

/-- Bulk loads happen as a whole or not at all.

    A load is refused exactly if its bytes would leave memory on one side, and otherwise memory
    holds them: each at its place and all other cells as before.

    Blocks are read across the top of memory. A block is its first part and then the rest, its bytes
    are those of consecutive cells modulo 4096, and the word at its beginning is made of its first
    two bytes.

    A program is refused exactly if it has more than 3584 bytes, and then nothing changes. Any other
    is loaded with its bounds checked, which are never met, and nothing changes but memory. -/
theorem load_allOrNothing :
    (∀ (m : Ram) (start : Int) (bytes : List UInt8),
      if start < 0 ∨ 4096 < start + bytes.length then
        m.load? start bytes = .error (.segment bytes.length start)
      else
        ∃ memory, m.load? start bytes = .ok memory ∧ memory.Holds m start bytes) ∧
    (∀ (m : Ram) (a : Int) (k n : Nat), ∃ first second,
      m.block? a k = .ok first ∧ m.block? (a + k) n = .ok second ∧
      m.block? a (k + n : Nat) = .ok (first ++ second) ∧ first.length = k ∧
      ∀ (i : Nat) byte, first[i]? = some byte →
        m.cells.toList[((a + i) % 4096).toNat]? = some byte) ∧
    (∀ (m : Ram) (a : Int) (n : Nat), ∃ high low rest word,
      m.block? a (n + 2 : Nat) = .ok (high :: low :: rest) ∧
      m.word? a = .ok word ∧ word.toNat = high.toNat * 256 + low.toNat) ∧
    ∀ (m : Machine ρ) (program : List UInt8),
      if 3584 < program.length then
        m.call (.load program) =
          { error := some (.program ⟨program.length⟩), machine := m }
      else
        ∃ memory, m.memory.load? 0x200 program = .ok memory ∧
          memory.Holds m.memory 0x200 program ∧
          m.call (.load program) = { machine := { m with memory } } := by
  refine ⟨fun m start bytes => ?_, fun m a k n => ?_, fun m a n => ?_, fun m program => ?_⟩
  -- The two sides of the test are the two lemmas about loads.
  · split
    · next h => exact m.load?_of_leaves h
    · next h => exact m.load?_of_fits h
  · have hrest := m.block_add (Address.ofInt a) k n
    rw [← Address.ofInt_add] at hrest
    refine ⟨_, _, m.block?_ram a k, m.block?_ram (a + k) n, ?_, m.length_block _ _,
      fun i byte h => m.cells_of_mem_block? a h⟩
    rw [Memory.block?_ram, Int.toNat_natCast, hrest]
    rfl
  · obtain ⟨high, low, rest, hblock, hword⟩ := m.word?_eq a n
    refine ⟨high, low, rest, _, ?_, hword, Word.toNat_ofBytes high low⟩
    rw [Memory.block?_ram, Int.toNat_natCast, hblock]
  · obtain ⟨hfits, note, hload⟩ | ⟨hlong, hload⟩ := m.loadProgram_cases program
    · have hlimit : program.length ≤ 3584 := hfits
      have hinside : ¬((0x200 : Int) < 0 ∨ 4096 < (0x200 : Int) + program.length) := by omega
      obtain ⟨memory, hmemory, hholds⟩ := m.memory.load?_of_fits hinside
      -- The bounds that are checked hold for every program that fits.
      have hsame := Except.ok.inj (hmemory.symm.trans (m.load?_program hfits))
      rw [if_neg (Nat.not_lt.2 hlimit)]
      exact ⟨memory, hmemory, hholds, by simp only [call, hload, hsame]⟩
    · have hlimit : 3584 < program.length := hlong
      rw [if_pos hlimit]
      simp only [call, hload]

/-- A run that ends with the last cell is loaded, and its last byte is found below address zero too.
    One more byte is refused, and so are no bytes at all behind the end. -/
example :
    let top := (Memory.blank 4096).load? 0xFFE [1, 2]
    (top.toOption.bind fun memory => (memory.get? (-1)).toOption) = some 2 ∧
      ((Memory.blank 4096).load? 0xFFE [1, 2, 3]).toOption = none ∧
      ((Memory.blank 4096).load? 0x1001 []).toOption = none := by
  decide +kernel

end Machine

end Chip8
