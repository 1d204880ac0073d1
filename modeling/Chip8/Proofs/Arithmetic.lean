import Chip8.Proofs.Execute

/-!
# Arithmetic on registers

The words `8xyN` combine two registers and the words `7xkk` add a byte to one. A sum, a difference
or a doubled byte may leave the range of a byte; what does not fit goes to the flag register, so
that result and flag together make up the exact number. The two operands may be the same register
and either of them may be the flag register: operands are read before anything is written, and the
flag is written after the result.

## Key results

- `Alu.add_eq`, `Alu.sub_eq`, `Alu.halve_eq`, `Alu.double_eq`: result and flag as an exact number
- `Alu.Exact`, `Alu.Bitwise`: what each digit of an arithmetic word is to compute
- `Registers.takes_apply`, `Registers.takesFlagged_apply`: where result and flag go
- `Machine.execute_arithmetic`: what the words `8xyN` and `7xkk` leave in all registers
-/

namespace Chip8

/-! ## Bytes and their flags -/

namespace Alu

/-- A flag is a digit of a binary number. -/
private theorem toNat_flag (b : Bool) : (flag b).toNat = b.toNat := by
  cases b <;> rfl

/-- A flag is zero or one. -/
private theorem toNat_flag_le (b : Bool) : (flag b).toNat ≤ 1 := by
  rw [toNat_flag]
  exact Bool.toNat_le b

/-- The carry is the digit of a sum that does not fit into a byte. -/
theorem add_eq (a b : UInt8) :
    a.toNat + b.toNat = 256 * (flag (255 < a.toNat + b.toNat)).toNat + (a + b).toNat := by
  have ha := a.toNat_lt
  have hb := b.toNat_lt
  rw [toNat_flag, UInt8.toNat_add]
  -- Either the sum fits into a byte, or it exceeds one by less than 256.
  by_cases h : 255 < a.toNat + b.toNat
  · simp only [h, decide_true, Bool.toNat_true]
    omega
  · simp only [h, decide_false, Bool.toNat_false]
    omega

/-- A difference of bytes borrows 256 unless its flag is set. -/
theorem sub_eq (a b : UInt8) :
    (a.toNat : Int) - b.toNat = (a - b).toNat - 256 * (1 - (flag (b ≤ a)).toNat) := by
  have ha := a.toNat_lt
  have hb := b.toNat_lt
  rw [toNat_flag, UInt8.toNat_sub]
  -- Either nothing is borrowed, or the difference is below zero and wraps around once.
  by_cases h : b ≤ a
  · have hle : b.toNat ≤ a.toNat := UInt8.le_iff_toNat_le.1 h
    simp only [h, decide_true, Bool.toNat_true]
    omega
  · have hlt : ¬b.toNat ≤ a.toNat := fun hle => h (UInt8.le_iff_toNat_le.2 hle)
    simp only [h, decide_false, Bool.toNat_false]
    omega

/-- Halving a byte leaves its lowest bit over. -/
theorem halve_eq (a : UInt8) : a.toNat = 2 * (a >>> 1).toNat + (a &&& 1).toNat := by
  -- Shifts and masks of a byte are those of its value, which `omega` knows as quotients.
  rw [UInt8.toNat_shiftRight, UInt8.toNat_and]
  show a.toNat = 2 * (a.toNat >>> 1) + (a.toNat &&& 1)
  rw [Nat.shiftRight_eq_div_pow, Nat.and_one_is_mod]
  omega

/-- Doubling a byte moves its highest bit out. -/
theorem double_eq (a : UInt8) : 2 * a.toNat = 256 * (a >>> 7).toNat + (a <<< 1).toNat := by
  have ha := a.toNat_lt
  rw [UInt8.toNat_shiftRight, UInt8.toNat_shiftLeft]
  show 2 * a.toNat = 256 * (a.toNat >>> 7) + a.toNat <<< 1 % 2 ^ 8
  rw [Nat.shiftRight_eq_div_pow, Nat.shiftLeft_eq]
  omega

/-- The lowest bit is zero or one. -/
private theorem lowBit_le (a : UInt8) : (a &&& 1).toNat ≤ 1 := by
  rw [UInt8.toNat_and]
  exact Nat.and_le_right

/-- So is the highest. -/
private theorem highBit_le (a : UInt8) : (a >>> 7).toNat ≤ 1 := by
  have ha := a.toNat_lt
  have h := double_eq a
  omega

/-- The digits of the words `8xyN` with a flag: how the result `r` and the flag `f` make up the
    exact number that the operands `a` and `b` give. -/
inductive Exact (a b r f : Nat) : Nibble → Prop
  | add (sum : a + b = 256 * f + r) : Exact a b r f 0x4
  | sub (difference : (a : Int) - b = r - 256 * (1 - f)) : Exact a b r f 0x5
  | shiftRight (halves : a = 2 * r + f) : Exact a b r f 0x6
  | subFrom (difference : (b : Int) - a = r - 256 * (1 - f)) : Exact a b r f 0x7
  | shiftLeft (double : 2 * a = 256 * f + r) : Exact a b r f 0xE

/-- The digits of the words `8xyN` without a flag, and their results. -/
inductive Bitwise (a b : Nat) : Nibble → Nat → Prop
  | copy : Bitwise a b 0x0 b
  | or : Bitwise a b 0x1 (a ||| b)
  | and : Bitwise a b 0x2 (a &&& b)
  | xor : Bitwise a b 0x3 (a ^^^ b)

/-- The digits that are in use are those of the operations. -/
private theorem exists_digit_eq {n : Nibble}
    (h : n ∈ [0x0, 0x1, 0x2, 0x3, 0x4, 0x5, 0x6, 0x7, 0xE]) :
    ∃ op : Alu, op.digit = n := by
  have hsome : (ofDigit? n).isSome = true := by
    revert n
    decide
  obtain ⟨op, hop⟩ := Option.isSome_iff_exists.1 hsome
  exact ⟨op, (ofDigit?_eq_some_iff.1 hop).symm⟩

/-- The operations with a flag are exact. -/
private theorem exists_eval_exact {op : Alu} (h : op.digit ∈ [0x4, 0x5, 0x6, 0x7, 0xE])
    (a b : UInt8) :
    ∃ r f, op.eval a b = (r, some f) ∧ f.toNat ≤ 1 ∧
      Exact a.toNat b.toNat r.toNat f.toNat op.digit := by
  cases op with
  | copy | or | and | xor => exact absurd h (by decide)
  | add => exact ⟨_, _, rfl, toNat_flag_le _, .add (add_eq a b)⟩
  | sub => exact ⟨_, _, rfl, toNat_flag_le _, .sub (sub_eq a b)⟩
  | shiftRight => exact ⟨_, _, rfl, lowBit_le a, .shiftRight (halve_eq a)⟩
  | subFrom => exact ⟨_, _, rfl, toNat_flag_le _, .subFrom (sub_eq b a)⟩
  | shiftLeft => exact ⟨_, _, rfl, highBit_le a, .shiftLeft (double_eq a)⟩

/-- The operations without a flag work bit by bit. -/
private theorem exists_eval_bitwise {op : Alu} (h : op.digit ∈ [0x0, 0x1, 0x2, 0x3]) (a b : UInt8) :
    ∃ r, op.eval a b = (r, none) ∧ Bitwise a.toNat b.toNat op.digit r.toNat := by
  cases op with
  | copy => exact ⟨_, rfl, .copy⟩
  | or => exact ⟨_, rfl, UInt8.toNat_or a b ▸ .or⟩
  | and => exact ⟨_, rfl, UInt8.toNat_and a b ▸ .and⟩
  | xor => exact ⟨_, rfl, UInt8.toNat_xor a b ▸ .xor⟩
  | add | sub | shiftRight | subFrom | shiftLeft => exact absurd h (by decide)

end Alu

/-! ## Results and flags in registers -/

namespace Registers

/-- A register took a value, and no other register changed. -/
structure Takes (v after : Registers) (x : Register) (r : Nat) : Prop where
  result : (after.read x).toNat = r
  others : ∀ s, s ≠ x → after.read s = v.read s

/-- A register took a result and then the flag register a flag, and no other register changed. -/
structure TakesFlagged (v after : Registers) (x : Register) (r f : Nat) : Prop where
  flag : (after.read flagRegister).toNat = f
  result : x ≠ flagRegister → (after.read x).toNat = r
  others : ∀ s, s ≠ x → s ≠ flagRegister → after.read s = v.read s

private theorem takes_write (v : Registers) (x : Register) (value : UInt8) :
    v.Takes (v.write x value) x value.toNat where
  result := by rw [read_write, if_pos rfl]
  others s hs := by rw [read_write, if_neg hs]

variable {v : Registers} {op : Alu} {x y : Register}

/-- An operation without a flag writes its result. -/
theorem takes_apply {r : UInt8} (h : op.eval (v.read x) (v.read y) = (r, none)) :
    v.Takes (v.apply op x y) x r.toNat := by
  simp only [apply, h]
  exact takes_write v x r

/-- An operation with a flag writes its result, and then the flag over whatever is there. -/
theorem takesFlagged_apply {r f : UInt8} (h : op.eval (v.read x) (v.read y) = (r, some f)) :
    v.TakesFlagged (v.apply op x y) x r.toNat f.toNat := by
  simp only [apply, h]
  -- The flag register is written last, so that its flag stands even where it is the target.
  constructor
  · rw [read_write, if_pos rfl]
  · intro hx
    rw [read_write, if_neg hx, read_write, if_pos rfl]
  · intro s hs hflag
    rw [read_write, if_neg hflag, read_write, if_neg hs]

end Registers

namespace Machine

variable {ρ : Type} [ByteSource ρ]

/-- A word `8xyN` applies the operation of its last digit. -/
private theorem execute_alu (m : Machine ρ) (op : Alu) (x y : Register) :
    m.execute (.ofWord ⟨0x8, x, y, op.digit⟩) =
      .ok
        { next := m.pc.val + 2
          machine := { m with registers := m.registers.apply op x y } } := by
  cases op <;> rfl

/-- A word `8xyN` changes registers only. With a flag, result and flag make up the exact number, the
    flag register holds the flag even if it is an operand, and the first register holds the result
    unless it is the flag register. Without a flag, and for a word `7xkk`, which adds its byte
    modulo 256, only the first register changes. -/
theorem execute_arithmetic (m : Machine ρ) (x y : Register) :
    let v := m.registers
    let a := (v.read x).toNat
    let b := (v.read y).toNat
    (∀ n ∈ [0x4, 0x5, 0x6, 0x7, 0xE], ∃ after r f,
      m.execute (.ofWord ⟨0x8, x, y, n⟩) =
        .ok { next := m.pc.val + 2, machine := { m with registers := after } } ∧
      r ≤ 255 ∧ f ≤ 1 ∧ Alu.Exact a b r f n ∧ v.TakesFlagged after x r f) ∧
    (∀ n ∈ [0x0, 0x1, 0x2, 0x3], ∃ after r,
      m.execute (.ofWord ⟨0x8, x, y, n⟩) =
        .ok { next := m.pc.val + 2, machine := { m with registers := after } } ∧
      Alu.Bitwise a b n r ∧ v.Takes after x r) ∧
    ∀ d e : Nibble, ∃ after,
      m.execute (.ofWord ⟨0x7, x, d, e⟩) =
        .ok { next := m.pc.val + 2, machine := { m with registers := after } } ∧
      v.Takes after x ((a + (d.val * 16 + e.val)) % 256) := by
  intro v a b
  refine ⟨?_, ?_, ?_⟩
  · intro n hn
    -- The lists of digits split the operations into those with a flag and those without.
    obtain ⟨op, rfl⟩ := Alu.exists_digit_eq (List.mem_append_right [0x0, 0x1, 0x2, 0x3] hn)
    obtain ⟨r, f, heval, hf, hexact⟩ := Alu.exists_eval_exact hn (v.read x) (v.read y)
    have hr : r.toNat ≤ 255 := by
      have := r.toNat_lt
      omega
    exact ⟨_, _, _, m.execute_alu op x y, hr, hf, hexact, Registers.takesFlagged_apply heval⟩
  · intro n hn
    obtain ⟨op, rfl⟩ := Alu.exists_digit_eq
      (List.mem_append_left [0x4, 0x5, 0x6, 0x7, 0xE] hn)
    obtain ⟨r, heval, hbitwise⟩ := Alu.exists_eval_bitwise hn (v.read x) (v.read y)
    exact ⟨_, _, m.execute_alu op x y, hbitwise, Registers.takes_apply heval⟩
  · intro d e
    have hsum : (v.read x + UInt8.ofNat (d.val * 16 + e.val)).toNat =
        (a + (d.val * 16 + e.val)) % 256 := by
      rw [UInt8.toNat_add, UInt8.toNat_ofNat']
      omega
    exact ⟨_, rfl, hsum ▸ Registers.takes_write v x _⟩

/-- The flag register added to itself holds the carry of the sum and not its low byte; copied to
    another register, it stays as it is. -/
theorem execute_arithmetic_flagRegister :
    ∃ m : Machine Replay,
      m = { fresh (Replay.ofInts [7]) with registers := Registers.zero.write 0xF 200 } ∧
      (∃ after, m.execute (.ofWord ⟨0x8, 0xF, 0xF, 0x4⟩) =
          .ok { next := m.pc.val + 2, machine := { m with registers := after } } ∧
        (after.read 0xF).toNat = 1) ∧
      ∃ after, m.execute (.ofWord ⟨0x8, 0x0, 0xF, 0x0⟩) =
          .ok { next := m.pc.val + 2, machine := { m with registers := after } } ∧
        (after.read 0x0).toNat = 200 ∧ (after.read 0xF).toNat = 200 := by
  obtain ⟨m, hm⟩ : ∃ m : Machine Replay,
      m = { fresh (Replay.ofInts [7]) with registers := Registers.zero.write 0xF 200 } := ⟨_, rfl⟩
  have hflag : m.registers.read 0xF = 200 := by
    rw [hm]
    decide
  refine ⟨m, hm, ?_, ?_⟩
  · obtain ⟨after, r, f, hexecute, hr, -, hexact, htakes⟩ :=
      (execute_arithmetic m 0xF 0xF).1 0x4 (by decide)
    refine ⟨after, hexecute, htakes.flag.trans ?_⟩
    cases hexact with
    | add hsum =>
      rw [hflag] at hsum
      have hsum : 200 + 200 = 256 * f + r := hsum
      omega
  · obtain ⟨after, r, hexecute, hbitwise, htakes⟩ :=
      (execute_arithmetic m 0x0 0xF).2.1 0x0 (by decide)
    refine ⟨after, hexecute, htakes.result.trans ?_, ?_⟩
    · cases hbitwise
      rw [hflag]
      rfl
    · rw [htakes.others 0xF (by decide), hflag]
      rfl

end Machine

end Chip8
