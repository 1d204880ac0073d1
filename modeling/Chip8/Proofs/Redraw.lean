import Chip8.Proofs.Execute
import Chip8.Proofs.Sprites

/-!
# Drawing a sprite twice

A sprite is drawn by exclusive or, so a second draw at the same place undoes the first one. The
flags of the two draws complement each other: the first one reports the bits that fall on lit cells,
the second one those that fall on the others. The operands are read before the flag is written, even
if one of them is the flag register.

## Key results

- `Framebuffer.draw_draw`: a second draw undoes the first, on a framebuffer of any size
- `Framebuffer.draw_draw_hit_iff`: what the second draw reports
- `Machine.Covers`: the cells on which the set bits of the sprite at the index fall
- `Machine.SameSprite.screen_drawSprite`, `Machine.SameSprite.flags_drawSprite`: the second draw of
  a machine
- `Machine.execute_draw_twice`: two draws by the machine
-/

namespace Chip8

-- Zero is the numeral here, and not that of an algebraic structure.
attribute [local instance (1100)] Zero.ofOfNat0

namespace Framebuffer

variable {width height : Nat}

/-- Framebuffers with the same pixels are the same. -/
private theorem ext_get {fb fb' : Framebuffer width height} (h : ∀ x y, fb.get x y = fb'.get x y) :
    fb = fb' := by
  -- Row by row and cell by cell.
  obtain ⟨rows⟩ := fb
  obtain ⟨rows'⟩ := fb'
  congr 1
  apply Vector.ext
  intro y hy
  apply Vector.ext
  intro x hx
  exact h ⟨x, hx⟩ ⟨y, hy⟩

variable [NeZero width] [NeZero height]

/-- A second draw undoes the first. -/
theorem draw_draw (fb : Framebuffer width height) (x y : Int) (sprite : List UInt8) :
    ((fb.draw x y sprite).2.draw x y sprite).2 = fb := by
  -- Each pixel is flipped twice, or not at all.
  apply ext_get
  intro p q
  rw [get_draw, get_draw, Bool.xor_assoc, Bool.xor_self, Bool.xor_false]

variable {fb : Framebuffer width height} {sprite : List UInt8} {x y : Int}

/-- A sprite no larger than the screen changes exactly the cells that it covers. -/
private theorem get_draw_of_le (hwidth : 8 ≤ width) (hheight : sprite.length ≤ height)
    (p : Fin width) (q : Fin height) :
    (fb.draw x y sprite).2.get p q =
      (fb.get p q ^^ decide (0 < coverage x y sprite p q)) := by
  -- No cell is covered twice, so that being covered and being covered an odd number of times
  -- agree.
  have hone := coverage_le_one hwidth hheight x y p q
  have hodd : coverage x y sprite p q % 2 = 1 ↔ 0 < coverage x y sprite p q := by omega
  rw [get_draw, decide_eq_decide.2 hodd]

/-- The second draw puts a pixel out where the first one lit one. -/
theorem draw_draw_hit_iff (hwidth : 8 ≤ width) (hheight : sprite.length ≤ height) :
    ((fb.draw x y sprite).2.draw x y sprite).1 = true ↔
      ∃ p q, 0 < coverage x y sprite p q ∧ fb.get p q = false := by
  rw [draw_hit_iff_covers _ hwidth hheight]
  -- A cell that the first draw lit was not lit before.
  apply exists_congr
  intro p
  apply exists_congr
  intro q
  apply and_congr_right
  intro hpos
  rw [get_draw_of_le hwidth hheight, decide_eq_true hpos, Bool.xor_true, Bool.not_eq_true']

end Framebuffer

/-- A byte with a set bit is not zero, and the other way round. -/
private theorem Sprite.byte_eq_zero_iff (byte : UInt8) :
    byte = 0 ↔ ∀ column < 8, byte.toNat.testBit (7 - column) = false := by
  -- The digits of a byte are its bits from the highest to the lowest, and there are no others.
  constructor
  · rintro rfl column -
    exact Nat.zero_testBit _
  · intro h
    apply UInt8.toNat_inj.1
    apply Nat.eq_of_testBit_eq
    intro i
    rw [show (0 : UInt8).toNat = 0 from rfl, Nat.zero_testBit]
    by_cases hi : i < 8
    · have hbit := h (7 - i) (by omega)
      rwa [show 7 - (7 - i) = i by omega] at hbit
    · apply Nat.testBit_lt_two_pow
      calc byte.toNat < 2 ^ 8 := byte.toNat_lt
        _ ≤ 2 ^ i := Nat.pow_le_pow_right (by decide) (by omega)

namespace Machine

variable {ρ : Type}

/-- A set bit of the sprite of `n` bytes at the index falls on a cell, if the sprite is drawn at the
    coordinates in two registers. -/
def Covers (m : Machine ρ) (x y : Register) (n : Nibble) (p : Fin 64) (q : Fin 32) : Prop :=
  ∃ row < n.val, ∃ column < 8,
    (m.memory.read (m.index + Fin.ofNat 4096 row)).toNat.testBit (7 - column) = true ∧
    ((m.registers.read x).toNat + column) % 64 = p.val ∧
    ((m.registers.read y).toNat + row) % 32 = q.val

/-- Two machines draw the same sprite at the same place. -/
structure SameSprite (m later : Machine ρ) (x y : Register) : Prop where
  memory : later.memory = m.memory
  index : later.index = m.index
  column : later.registers.read x = m.registers.read x
  row : later.registers.read y = m.registers.read y

/-- The flag register is one if a condition holds, and zero if it does not. -/
def Flags (m : Machine ρ) (condition : Prop) : Prop :=
  (condition ∧ m.registers.read flagRegister = 1) ∨
    (¬condition ∧ m.registers.read flagRegister = 0)

/-- A draw sets the flag register if a lit pixel went out. -/
private theorem flags_of_hit_iff {m : Machine ρ} {x y : Register} {n : Nibble} {condition : Prop}
    (hhit : (m.screen.draw (m.registers.read x).toNat (m.registers.read y).toNat
      (m.memory.block m.index n.val)).1 = true ↔ condition) :
    (m.drawSprite x y n).machine.Flags condition := by
  -- The flag register is the last thing that a draw writes.
  have hflag : (m.drawSprite x y n).machine.registers.read flagRegister =
      Alu.flag (m.screen.draw (m.registers.read x).toNat (m.registers.read y).toNat
        (m.memory.block m.index n.val)).1 := by
    show (m.registers.write flagRegister _).read flagRegister = _
    rw [Registers.read_write, if_pos rfl]
    rfl
  by_cases hcondition : condition
  · rw [hhit.2 hcondition] at hflag
    exact .inl ⟨hcondition, hflag⟩
  · rw [Bool.eq_false_of_not_eq_true fun h => hcondition (hhit.1 h)] at hflag
    exact .inr ⟨hcondition, hflag⟩

/-- A flag that is zero says that its condition does not hold. -/
private theorem Flags.eq_zero_iff {m : Machine ρ} {condition : Prop} (h : m.Flags condition) :
    m.registers.read flagRegister = 0 ↔ ¬condition := by
  obtain ⟨hcondition, hone⟩ | ⟨hcondition, hzero⟩ := h
  · rw [hone]
    constructor
    · intro hne
      exact absurd hne (by decide)
    · intro hnot
      exact absurd hcondition hnot
  · exact ⟨fun _ => hcondition, fun _ => hzero⟩

/-- The cells that a machine's sprite covers, among those of any sprite. -/
private theorem covers_iff_coverage {m : Machine ρ} {x y : Register} {n : Nibble} {p : Fin 64}
    {q : Fin 32} :
    m.Covers x y n p q ↔
      0 < Framebuffer.coverage (m.registers.read x).toNat (m.registers.read y).toNat
        (m.memory.block m.index n.val) p q := by
  -- A set bit falls on the cell if its row and its column do, both modulo the screen.
  rw [Framebuffer.coverage_pos_iff, Memory.length_block, Covers]
  apply exists_congr
  intro row
  apply and_congr_right
  intro hrow
  apply exists_congr
  intro column
  apply and_congr_right
  intro hcolumn
  have hbyte : (m.memory.block m.index n.val).getD row 0 =
      m.memory.read (m.index + Fin.ofNat 4096 row) := by
    have hlt : row < (m.memory.block m.index n.val).length := by rwa [Memory.length_block]
    rw [List.getD_eq_getElem?_getD, List.getElem?_eq_getElem hlt, Option.getD_some,
      Memory.getElem_block]
  rw [Sprite.lit, hbyte, Framebuffer.wrap_eq_iff, Framebuffer.wrap_eq_iff]
  apply and_congr_right
  intro _
  omega

/-- Some cell is covered unless all bytes of the sprite are zero. -/
private theorem not_exists_covers_iff {m : Machine ρ} {x y : Register} {n : Nibble} :
    (¬∃ p q, m.Covers x y n p q) ↔
      ∀ row < n.val, m.memory.read (m.index + Fin.ofNat 4096 row) = 0 := by
  -- A byte that is not zero has a set bit, which falls on some cell.
  constructor
  · intro hnone row hrow
    rw [Sprite.byte_eq_zero_iff]
    intro column hcolumn
    apply Bool.eq_false_of_not_eq_true
    intro hbit
    exact hnone ⟨Fin.ofNat 64 _, Fin.ofNat 32 _, row, hrow, column, hcolumn, hbit, rfl, rfl⟩
  · rintro hzero ⟨p, q, row, hrow, column, hcolumn, hbit, -⟩
    have hbyte := (Sprite.byte_eq_zero_iff _).1 (hzero row hrow) column hcolumn
    exact Bool.false_ne_true (hbyte.symm.trans hbit)

/-- No sprite of the machine is higher than its screen. -/
private theorem length_block_le (m : Machine ρ) (n : Nibble) :
    (m.memory.block m.index n.val).length ≤ 32 := by
  rw [Memory.length_block]
  omega

/-- A draw changes exactly the cells that its sprite covers. -/
private theorem get_drawSprite_ne_iff (m : Machine ρ) (x y : Register) (n : Nibble) (p : Fin 64)
    (q : Fin 32) :
    (m.drawSprite x y n).machine.screen.get p q ≠ m.screen.get p q ↔ m.Covers x y n p q := by
  rw [covers_iff_coverage]
  show (m.screen.draw _ _ _).2.get p q ≠ _ ↔ _
  rw [Framebuffer.get_draw_of_le (by decide) (m.length_block_le n)]
  by_cases hcovered : 0 < Framebuffer.coverage (m.registers.read x).toNat
      (m.registers.read y).toNat (m.memory.block m.index n.val) p q
  · simp [hcovered]
  · simp [hcovered]

/-- A draw reports the set bits that fall on lit cells. -/
private theorem flags_drawSprite (m : Machine ρ) (x y : Register) (n : Nibble) :
    (m.drawSprite x y n).machine.Flags
      (∃ p q, m.Covers x y n p q ∧ m.screen.get p q = true) := by
  apply flags_of_hit_iff
  rw [m.screen.draw_hit_iff_covers (by decide) (m.length_block_le n)]
  simp only [covers_iff_coverage]

namespace SameSprite

variable {m later : Machine ρ} {x y : Register} {n : Nibble}

/-- A draw leaves everything that it reads alone, unless a coordinate is in the flag register. -/
private theorem of_drawSprite (m : Machine ρ) (n : Nibble) (hx : x ≠ flagRegister)
    (hy : y ≠ flagRegister) : SameSprite m (m.drawSprite x y n).machine x y where
  memory := rfl
  index := rfl
  column := by
    show (m.registers.write flagRegister _).read x = _
    rw [Registers.read_write, if_neg hx]
  row := by
    show (m.registers.write flagRegister _).read y = _
    rw [Registers.read_write, if_neg hy]

/-- The second draw undoes the first. -/
theorem screen_drawSprite (h : SameSprite m later x y)
    (hscreen : later.screen = (m.drawSprite x y n).machine.screen) :
    (later.drawSprite x y n).machine.screen = m.screen := by
  -- The later machine draws what the first one drew, onto the screen that it left.
  show (later.screen.draw _ _ _).2 = _
  rw [hscreen, h.memory, h.index, h.column, h.row]
  exact m.screen.draw_draw _ _ _

/-- The second draw reports the set bits that fell on unlit cells. -/
theorem flags_drawSprite (h : SameSprite m later x y)
    (hscreen : later.screen = (m.drawSprite x y n).machine.screen) :
    (later.drawSprite x y n).machine.Flags
      (∃ p q, m.Covers x y n p q ∧ m.screen.get p q = false) := by
  apply flags_of_hit_iff
  rw [hscreen, h.memory, h.index, h.column, h.row]
  show ((m.screen.draw _ _ _).2.draw _ _ _).1 = true ↔ _
  rw [Framebuffer.draw_draw_hit_iff (by decide) (m.length_block_le n)]
  simp only [covers_iff_coverage]

end SameSprite

variable [ByteSource ρ]

/-- A word `Dxyn` draws. -/
private theorem execute_draw (m : Machine ρ) (x y : Register) (n : Nibble) :
    m.execute (.ofWord ⟨0xD, x, y, n⟩) = .ok (m.drawSprite x y n) := rfl

/-- A word `Dxyn` flips the cells that its sprite covers, where the coordinates are those from
    before the flag is written, and flags whether one of them was lit. A second draw restores the
    screen, and flags whether one of them was not lit; what it needs is still there after the first
    draw, unless a coordinate is in the flag register. Both flags are zero for a sprite of zeros
    only. -/
theorem execute_draw_twice (m : Machine ρ) (x y : Register) (n : Nibble) :
    ∃ first, m.execute (.ofWord ⟨0xD, x, y, n⟩) = .ok first ∧
      (∀ p q, first.machine.screen.get p q ≠ m.screen.get p q ↔ m.Covers x y n p q) ∧
      first.machine.Flags (∃ p q, m.Covers x y n p q ∧ m.screen.get p q = true) ∧
      (x ≠ flagRegister → y ≠ flagRegister → SameSprite m first.machine x y) ∧
      ∀ later, SameSprite m later x y → later.screen = first.machine.screen →
        ∃ second, later.execute (.ofWord ⟨0xD, x, y, n⟩) = .ok second ∧
          second.machine.screen = m.screen ∧
          second.machine.Flags (∃ p q, m.Covers x y n p q ∧ m.screen.get p q = false) ∧
          (first.machine.registers.read flagRegister = 0 ∧
              second.machine.registers.read flagRegister = 0 ↔
            ∀ row < n.val, m.memory.read (m.index + Fin.ofNat 4096 row) = 0) := by
  refine ⟨_, m.execute_draw x y n, m.get_drawSprite_ne_iff x y n, m.flags_drawSprite x y n,
    SameSprite.of_drawSprite m n, ?_⟩
  intro later hsame hscreen
  have hfirst := m.flags_drawSprite x y n
  have hsecond := hsame.flags_drawSprite hscreen
  refine ⟨_, later.execute_draw x y n, hsame.screen_drawSprite hscreen, hsecond, ?_⟩
  -- Covered cells are lit or not, so that without flags there are none of them.
  rw [hfirst.eq_zero_iff, hsecond.eq_zero_iff, ← not_exists_covers_iff]
  constructor
  · rintro ⟨hlit, hunlit⟩ ⟨p, q, hcovers⟩
    cases hcell : m.screen.get p q with
    | true => exact hlit ⟨p, q, hcovers, hcell⟩
    | false => exact hunlit ⟨p, q, hcovers, hcell⟩
  · intro hnone
    constructor
    · rintro ⟨p, q, hcovers, -⟩
      exact hnone ⟨p, q, hcovers⟩
    · rintro ⟨p, q, hcovers, -⟩
      exact hnone ⟨p, q, hcovers⟩

/-- The digit zero is drawn across the lower right corner of a blank screen, without a flag, and
    drawn again, which leaves the screen blank and sets the flag. -/
theorem execute_draw_twice_acrossCorner :
    ∃ m : Machine Replay,
      m = { fresh (Replay.ofInts [7]) with
        registers := (Registers.zero.write 0x0 62).write 0x1 31, index := 0x050 } ∧
      ∃ first, m.execute (.ofWord ⟨0xD, 0x0, 0x1, 0x5⟩) = .ok first ∧
        first.machine.screen.get 1 0 = true ∧
        first.machine.registers.read flagRegister = 0 ∧
        ∃ second, first.machine.execute (.ofWord ⟨0xD, 0x0, 0x1, 0x5⟩) = .ok second ∧
          second.machine.screen = .blank 64 32 ∧
          second.machine.registers.read flagRegister = 1 := by
  obtain ⟨m, hm⟩ : ∃ m : Machine Replay, m = { fresh (Replay.ofInts [7]) with
      registers := (Registers.zero.write 0x0 62).write 0x1 31, index := 0x050 } := ⟨_, rfl⟩
  have hblank : m.screen = .blank 64 32 := congrArg Machine.screen hm
  -- The last set bit of the second row.
  have hcovers : m.Covers 0x0 0x1 0x5 1 0 := by
    refine ⟨1, by decide, 3, by decide, ?_⟩
    rw [hm]
    decide +kernel
  obtain ⟨first, hfirst, hcells, hflag, hsame, hagain⟩ := execute_draw_twice m 0x0 0x1 0x5
  obtain ⟨second, hsecond, hscreen, hflag', -⟩ :=
    hagain first.machine (hsame (by decide) (by decide)) rfl
  refine ⟨m, hm, first, hfirst, ?_, ?_, second, hsecond, hscreen.trans hblank, ?_⟩
  · have hne := (hcells 1 0).2 hcovers
    rw [hblank, Framebuffer.get_blank] at hne
    exact Bool.eq_true_of_not_eq_false hne
  · rw [hflag.eq_zero_iff]
    rintro ⟨p, q, -, hlit⟩
    rw [hblank, Framebuffer.get_blank] at hlit
    exact Bool.false_ne_true hlit
  · obtain ⟨-, hone⟩ | ⟨hnone, -⟩ := hflag'
    · exact hone
    · refine absurd ⟨1, 0, hcovers, ?_⟩ hnone
      rw [hblank, Framebuffer.get_blank]

end Machine

end Chip8
