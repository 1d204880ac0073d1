import Chip8.Word

/-!
# Instructions

Every word means something: one of thirty-four operations, or an undefined word that the machine
skips. `Instruction.ofWord` reads a word and `Instruction.toWord` writes it back, and
`toWord_ofWord` says that nothing is lost.
-/

namespace Chip8

/-- Operations on two registers, the first of which takes the result. -/
inductive Alu
  | copy | or | and | xor | add | sub | shiftRight | subFrom | shiftLeft
deriving DecidableEq, Repr

namespace Alu

/-- The digit that selects an operation. -/
def digit : Alu → Nibble
  | copy => 0x0
  | or => 0x1
  | and => 0x2
  | xor => 0x3
  | add => 0x4
  | sub => 0x5
  | shiftRight => 0x6
  | subFrom => 0x7
  | shiftLeft => 0xE

/-- The operation that a digit selects. -/
def ofDigit? (d : Nibble) : Option Alu :=
  match d with
  | 0x0 => some copy
  | 0x1 => some or
  | 0x2 => some and
  | 0x3 => some xor
  | 0x4 => some add
  | 0x5 => some sub
  | 0x6 => some shiftRight
  | 0x7 => some subFrom
  | 0xE => some shiftLeft
  | _ => none

/-- A digit stands for an operation exactly if it is the digit of the operation. -/
theorem ofDigit?_eq_some_iff {d : Nibble} {op : Alu} : ofDigit? d = some op ↔ d = op.digit := by
  revert d op
  intro d op
  cases op <;> revert d <;> decide

end Alu

/-- A decoded instruction. -/
inductive Instruction
  | clear
  | ret
  | jump (target : Address)
  -- Continues at an address and remembers where to return.
  | call (target : Address)
  -- Skips the next instruction if a register equals a byte.
  | skipEqByte (x : Register) (byte : UInt8)
  -- Skips the next instruction if a register differs from a byte.
  | skipNeByte (x : Register) (byte : UInt8)
  -- Skips the next instruction if two registers are equal.
  | skipEq (x y : Register)
  -- Skips the next instruction if two registers differ.
  | skipNe (x y : Register)
  | loadByte (x : Register) (byte : UInt8)
  -- Adds a byte to a register without a carry.
  | addByte (x : Register) (byte : UInt8)
  | alu (op : Alu) (x y : Register)
  | loadIndex (value : Address)
  -- Continues at an address plus the first register.
  | jumpPlus (base : Address)
  -- Sets a register to a random byte under a mask.
  | random (x : Register) (mask : UInt8)
  -- Draws a sprite of `rows` bytes at the place that two registers name.
  | draw (x y : Register) (rows : Nibble)
  | skipKey (x : Register)
  | skipNoKey (x : Register)
  | readDelay (x : Register)
  | waitKey (x : Register)
  | setDelay (x : Register)
  | setSound (x : Register)
  | addIndex (x : Register)
  -- Points the index at the glyph of a digit.
  | glyph (x : Register)
  -- Stores the three decimal digits of a register.
  | decimal (x : Register)
  -- Stores the registers up to `x`.
  | store (x : Register)
  -- Loads the registers up to `x`.
  | load (x : Register)
  -- A word without a meaning.
  | undefined (word : Word)
deriving DecidableEq, Repr

namespace Instruction

/-- Reads a word whose family is selected by its low byte alone. -/
def ofKeyWord (w : Word) : Instruction :=
  match w.y, w.n with
  | 0x9, 0xE => skipKey w.x
  | 0xA, 0x1 => skipNoKey w.x
  | _, _ => undefined w

/-- Reads a word of the last family, selected by its low byte. -/
def ofMiscWord (w : Word) : Instruction :=
  match w.y, w.n with
  | 0x0, 0x7 => readDelay w.x
  | 0x0, 0xA => waitKey w.x
  | 0x1, 0x5 => setDelay w.x
  | 0x1, 0x8 => setSound w.x
  | 0x1, 0xE => addIndex w.x
  | 0x2, 0x9 => glyph w.x
  | 0x3, 0x3 => decimal w.x
  | 0x5, 0x5 => store w.x
  | 0x6, 0x5 => load w.x
  | _, _ => undefined w

/-- Reads a word of the first family, of which two words are defined. -/
def ofSystemWord (w : Word) : Instruction :=
  match w.x, w.y, w.n with
  | 0x0, 0xE, 0x0 => clear
  | 0x0, 0xE, 0xE => ret
  | _, _, _ => undefined w

/-- The instruction that a word stands for. -/
def ofWord (w : Word) : Instruction :=
  match w.family with
  | 0x0 => ofSystemWord w
  | 0x1 => jump w.address
  | 0x2 => call w.address
  | 0x3 => skipEqByte w.x w.byte
  | 0x4 => skipNeByte w.x w.byte
  | 0x5 => if w.n = 0 then skipEq w.x w.y else undefined w
  | 0x6 => loadByte w.x w.byte
  | 0x7 => addByte w.x w.byte
  | 0x8 =>
    match Alu.ofDigit? w.n with
    | some op => alu op w.x w.y
    | none => undefined w
  | 0x9 => if w.n = 0 then skipNe w.x w.y else undefined w
  | 0xA => loadIndex w.address
  | 0xB => jumpPlus w.address
  | 0xC => random w.x w.byte
  | 0xD => draw w.x w.y w.n
  | 0xE => ofKeyWord w
  | _ => ofMiscWord w

/-- The word of a family with an address operand. -/
def addressWord (family : Nibble) (a : Address) : Word :=
  { family, x := .ofNat (a.val / 256), y := .ofNat (a.val / 16), n := .ofNat a.val }

/-- The word of a family with a register and a byte operand. -/
def byteWord (family : Nibble) (x : Register) (byte : UInt8) : Word :=
  { family, x, y := .ofNat (byte.toNat / 16), n := .ofNat byte.toNat }

/-- The word that stands for an instruction. -/
def toWord : Instruction → Word
  | clear => ⟨0x0, 0x0, 0xE, 0x0⟩
  | ret => ⟨0x0, 0x0, 0xE, 0xE⟩
  | jump a => addressWord 0x1 a
  | call a => addressWord 0x2 a
  | skipEqByte x byte => byteWord 0x3 x byte
  | skipNeByte x byte => byteWord 0x4 x byte
  | skipEq x y => ⟨0x5, x, y, 0x0⟩
  | loadByte x byte => byteWord 0x6 x byte
  | addByte x byte => byteWord 0x7 x byte
  | alu op x y => ⟨0x8, x, y, op.digit⟩
  | skipNe x y => ⟨0x9, x, y, 0x0⟩
  | loadIndex a => addressWord 0xA a
  | jumpPlus a => addressWord 0xB a
  | random x mask => byteWord 0xC x mask
  | draw x y rows => ⟨0xD, x, y, rows⟩
  | skipKey x => ⟨0xE, x, 0x9, 0xE⟩
  | skipNoKey x => ⟨0xE, x, 0xA, 0x1⟩
  | readDelay x => ⟨0xF, x, 0x0, 0x7⟩
  | waitKey x => ⟨0xF, x, 0x0, 0xA⟩
  | setDelay x => ⟨0xF, x, 0x1, 0x5⟩
  | setSound x => ⟨0xF, x, 0x1, 0x8⟩
  | addIndex x => ⟨0xF, x, 0x1, 0xE⟩
  | glyph x => ⟨0xF, x, 0x2, 0x9⟩
  | decimal x => ⟨0xF, x, 0x3, 0x3⟩
  | store x => ⟨0xF, x, 0x5, 0x5⟩
  | load x => ⟨0xF, x, 0x6, 0x5⟩
  | undefined w => w

/-- An address operand is written back digit by digit. -/
@[simp] theorem addressWord_address (w : Word) : addressWord w.family w.address = w := by
  obtain ⟨f, x, y, n⟩ := w
  simp only [addressWord, Word.address, Word.nnn, Word.mk.injEq, true_and]
  refine ⟨Fin.ext ?_, Fin.ext ?_, Fin.ext ?_⟩ <;> simp only [Nibble.val_ofNat] <;> omega

/-- A byte operand is written back digit by digit. -/
@[simp] theorem byteWord_byte (w : Word) : byteWord w.family w.x w.byte = w := by
  obtain ⟨f, x, y, n⟩ := w
  simp only [byteWord, Word.byte, Word.kk, UInt8.toNat_ofNat', Word.mk.injEq, true_and]
  refine ⟨Fin.ext ?_, Fin.ext ?_⟩ <;> simp only [Nibble.val_ofNat] <;> omega

/-- Words that begin with zero are read back. -/
theorem toWord_ofSystemWord {w : Word} (h : w.family = 0x0) : (ofSystemWord w).toWord = w := by
  obtain ⟨f, x, y, n⟩ := w
  unfold ofSystemWord
  split <;> simp_all only [toWord]

/-- So are words that begin with `E`. -/
theorem toWord_ofKeyWord {w : Word} (h : w.family = 0xE) : (ofKeyWord w).toWord = w := by
  obtain ⟨f, x, y, n⟩ := w
  unfold ofKeyWord
  split <;> simp_all only [toWord]

/-- So are words that begin with `F`. -/
theorem toWord_ofMiscWord {w : Word} (h : w.family = 0xF) : (ofMiscWord w).toWord = w := by
  obtain ⟨f, x, y, n⟩ := w
  unfold ofMiscWord
  split <;> simp_all only [toWord]

/-- Reading a word loses nothing. -/
@[simp] theorem toWord_ofWord (w : Word) : (ofWord w).toWord = w := by
  unfold ofWord
  split <;> rename_i h
  · exact toWord_ofSystemWord h
  · simp [toWord, ← h]
  · simp [toWord, ← h]
  · simp [toWord, ← h]
  · simp [toWord, ← h]
  · split
    · rename_i hn
      simp only [toWord, ← h, ← hn]
    · rfl
  · simp [toWord, ← h]
  · simp [toWord, ← h]
  · split
    · rename_i op hop
      have := Alu.ofDigit?_eq_some_iff.1 hop
      simp [toWord, ← h, ← this]
    · rfl
  · split
    · rename_i hn
      simp only [toWord, ← h, ← hn]
    · rfl
  · simp [toWord, ← h]
  · simp [toWord, ← h]
  · simp [toWord, ← h]
  · simp [toWord, ← h]
  · exact toWord_ofKeyWord h
  · apply toWord_ofMiscWord
    have := w.family.isLt
    simp only [Fin.ext_iff, imp_false] at *
    omega

/-- The name under which executions of an instruction are counted. -/
def mnemonic : Instruction → String
  | clear => "CLS"
  | ret => "RET"
  | jump _ => "JP"
  | call _ => "CALL"
  | skipEqByte .. => "SE_VX_BYTE"
  | skipNeByte .. => "SNE_VX_BYTE"
  | skipEq .. => "SE_VX_VY"
  | skipNe .. => "SNE_VX_VY"
  | loadByte .. => "LD_VX_BYTE"
  | addByte .. => "ADD_VX_BYTE"
  | alu .copy .. => "LD_VX_VY"
  | alu .or .. => "OR"
  | alu .and .. => "AND"
  | alu .xor .. => "XOR"
  | alu .add .. => "ADD_VX_VY"
  | alu .sub .. => "SUB"
  | alu .shiftRight .. => "SHR"
  | alu .subFrom .. => "SUBN"
  | alu .shiftLeft .. => "SHL"
  | loadIndex _ => "LD_I"
  | jumpPlus _ => "JP_V0"
  | random .. => "RND"
  | draw .. => "DRW"
  | skipKey _ => "SKP"
  | skipNoKey _ => "SKNP"
  | readDelay _ => "LD_VX_DT"
  | waitKey _ => "LD_VX_K"
  | setDelay _ => "LD_DT_VX"
  | setSound _ => "LD_ST_VX"
  | addIndex _ => "ADD_I_VX"
  | glyph _ => "LD_F_VX"
  | decimal _ => "LD_B_VX"
  | store _ => "LD_MEM_VX"
  | load _ => "LD_VX_MEM"
  | undefined _ => "UNKNOWN"

end Instruction

end Chip8
