import Chip8.Proofs.Footprint

/-!
# Transfers between registers and memory

The words `Fx55` and `Fx65` move the registers up to `x` to the cells at the index and back, and the
words `Fx33` store the decimal digits of a register there. The cells may run past the top of memory,
so the addresses wrap; but a block is shorter than memory, and its addresses differ.

## Key results

- `Memory.read_writeBlock`, `Memory.writeBlock_block`: a block that is written can be read back, and
  writing back what was read changes nothing
- `Registers.read_writeFrom`: what a block leaves in the registers
- `Machine.transfers_roundTrip`: what the transfers leave in memory and registers
-/

namespace Chip8

namespace Memory

/-- A block that is not longer than memory is found where it was written. -/
theorem read_writeBlock (m : Ram) (a : Address) (bytes : List UInt8) (hsize : bytes.length ≤ 4096)
    {k : Nat} (hk : k < bytes.length) :
    (m.writeBlock a bytes).read (a + Fin.ofNat 4096 k) = bytes[k] := by
  -- Induction on the bytes; the first cell has to survive the writing of the others.
  induction bytes generalizing m a k with
  | nil => exact absurd hk (Nat.not_lt_zero k)
  | cons byte rest ih =>
    rw [List.length_cons] at hsize hk
    cases k with
    | zero =>
      -- The other bytes go to other addresses, even past the top of memory.
      have hother : ∀ j < rest.length, a ≠ a + 1 + Fin.ofNat 4096 j := by
        intro j hj heq
        rw [Address.add_one_add_ofNat] at heq
        have hzero : 0 = j + 1 :=
          Address.eq_of_add_ofNat_eq (by omega) (by omega) (a.add_ofNat_zero.trans heq)
        omega
      rw [Address.add_ofNat_zero, writeBlock, read_writeBlock_of_outside _ _ _ _ hother, read_write,
        if_pos rfl]
      rfl
    | succ k =>
      rw [← Address.add_one_add_ofNat]
      exact ih (m.write a byte) (a + 1) (by omega) (by omega)

/-- Memories with the same bytes are the same. -/
theorem ext_read {m m' : Ram} (h : ∀ a, m.read a = m'.read a) : m = m' := by
  obtain ⟨cells⟩ := m
  obtain ⟨cells'⟩ := m'
  congr 1
  apply Vector.ext
  intro i hi
  exact h ⟨i, hi⟩

/-- A block is its first byte and the block behind it. -/
theorem block_succ (m : Ram) (a : Address) (count : Nat) :
    m.block a (count + 1) = m.read a :: m.block (a + 1) count := by
  simp only [block, List.range_succ_eq_map, List.map_cons, List.map_map, Address.add_ofNat_zero]
  congr 1
  apply List.map_congr_left
  intro k _
  simp only [Function.comp_apply, Address.add_one_add_ofNat]

/-- Writing what is there already changes nothing, however long the block is. -/
theorem writeBlock_block (m : Ram) (a : Address) (count : Nat) :
    m.writeBlock a (m.block a count) = m := by
  -- Induction on the length; a byte that is written where it is leaves memory as it is.
  induction count generalizing a with
  | zero => rfl
  | succ count ih =>
    have hsame : m.write a (m.read a) = m := by
      apply ext_read
      intro b
      rw [read_write]
      by_cases hb : b = a
      · rw [if_pos hb, hb]
      · rw [if_neg hb]
    rw [block_succ, writeBlock, hsame]
    exact ih (a + 1)

end Memory

namespace Registers

/-- The registers that a block load reaches hold the values of the block. -/
theorem read_writeFrom (v : Registers) (first : Nat) (values : List UInt8) {k : Nat}
    (hk : k < values.length) {r : Register} (hr : r.val = first + k) :
    (v.writeFrom first values).read r = values[k] := by
  -- Induction on the values; the first register has to survive the loading of the others.
  induction values generalizing v first k with
  | nil => exact absurd hk (Nat.not_lt_zero k)
  | cons value rest ih =>
    rw [List.length_cons] at hk
    rw [writeFrom]
    cases k with
    | zero =>
      rw [read_writeFrom_of_outside _ _ _ _ (.inl (by omega))]
      simp only [read, Fin.getElem_fin, Vector.getElem_setIfInBounds, hr, Nat.add_zero, if_true]
      rfl
    | succ k => exact ih _ (first + 1) (by omega) (by omega)

/-- The registers up to `x` are loaded from consecutive cells, and the others are left alone. -/
private theorem read_load (v : Registers) (m : Ram) (a : Address) (x r : Register) :
    (v.writeFrom 0 (m.block a (x.val + 1))).read r =
      if r ≤ x then m.read (a + Fin.ofNat 4096 r.val) else v.read r := by
  by_cases hr : r ≤ x
  · have hlt : r.val < (m.block a (x.val + 1)).length := by
      rw [Memory.length_block]
      exact Nat.lt_succ_of_le hr
    rw [if_pos hr, read_writeFrom v 0 _ hlt (Nat.zero_add r.val).symm, Memory.getElem_block]
  · have hlt : x.val < r.val := Fin.not_le.1 hr
    rw [if_neg hr, read_writeFrom_of_outside _ _ _ _ (.inr (by rw [Memory.length_block]; omega))]

/-- The registers up to `x` are one more than its number. -/
theorem length_take (v : Registers) (x : Register) :
    (v.toList.take (x.val + 1)).length = x.val + 1 := by
  rw [List.length_take, length_toList]
  omega

/-- The registers that a block was loaded into hold the block. -/
private theorem take_writeFrom (v : Registers) (bytes : List UInt8) (h : bytes.length ≤ 16) :
    (v.writeFrom 0 bytes).toList.take bytes.length = bytes := by
  -- The loaded registers are compared with the block one by one.
  apply List.ext_getElem
  · rw [List.length_take, length_toList]
    omega
  · intro k _ hk
    rw [List.getElem_take]
    exact v.read_writeFrom 0 bytes hk (r := ⟨k, by omega⟩) (Nat.zero_add k).symm

/-- Registers that agree up to `x` are stored alike. -/
private theorem take_eq_of_agree {v w : Registers} {x : Register}
    (h : ∀ r ≤ x, v.read r = w.read r) :
    v.toList.take (x.val + 1) = w.toList.take (x.val + 1) := by
  apply List.ext_getElem
  · rw [length_take, length_take]
  · intro k hk _
    rw [length_take] at hk
    rw [List.getElem_take, List.getElem_take]
    exact h ⟨k, by omega⟩ (Nat.le_of_lt_succ hk)

/-- The registers up to `x` are stored in consecutive cells. -/
private theorem read_store (v : Registers) (m : Ram) (a : Address) {x r : Register} (hr : r ≤ x) :
    (m.writeBlock a (v.toList.take (x.val + 1))).read (a + Fin.ofNat 4096 r.val) = v.read r := by
  have hlength := v.length_take x
  have hk : r.val < (v.toList.take (x.val + 1)).length := by
    rw [hlength]
    exact Nat.lt_succ_of_le hr
  rw [Memory.read_writeBlock m a _ (by omega) hk, List.getElem_take]
  rfl

/-- No other cells change. -/
private theorem read_store_of_outside (v : Registers) (m : Ram) (a : Address) {x : Register}
    {b : Address} (hb : ∀ r ≤ x, b ≠ a + Fin.ofNat 4096 r.val) :
    (m.writeBlock a (v.toList.take (x.val + 1))).read b = m.read b := by
  apply Memory.read_writeBlock_of_outside
  intro k hk
  rw [length_take] at hk
  exact hb ⟨k, by omega⟩ (Nat.le_of_lt_succ hk)

/-- Three registers that are loaded from three bytes hold these. -/
private theorem read_load_three (v : Registers) (m : Ram) (a : Address) (b₀ b₁ b₂ : UInt8) :
    let loaded :=
      v.writeFrom 0 ((m.writeBlock a [b₀, b₁, b₂]).block a ((0x2 : Register).val + 1))
    loaded.read 0x0 = b₀ ∧ loaded.read 0x1 = b₁ ∧ loaded.read 0x2 = b₂ := by
  -- Three bytes are far from filling memory.
  have hfits : [b₀, b₁, b₂].length ≤ 4096 := show 3 ≤ 4096 by decide
  refine ⟨?_, ?_, ?_⟩
  · rw [read_load, if_pos (by decide)]
    exact m.read_writeBlock a _ hfits (show 0 < 3 by decide)
  · rw [read_load, if_pos (by decide)]
    exact m.read_writeBlock a _ hfits (show 1 < 3 by decide)
  · rw [read_load, if_pos (by decide)]
    exact m.read_writeBlock a _ hfits (show 2 < 3 by decide)

end Registers

namespace Machine

/-- The decimal digits of a byte, and what they make up. -/
private theorem decimalDigits_eq (byte : UInt8) :
    ∃ hundreds tens ones, decimalDigits byte = [hundreds, tens, ones] ∧
      hundreds.toNat ≤ 9 ∧ tens.toNat ≤ 9 ∧ ones.toNat ≤ 9 ∧
      100 * hundreds.toNat + 10 * tens.toNat + ones.toNat = byte.toNat := by
  have hbyte := byte.toNat_lt
  refine ⟨_, _, _, rfl, ?_⟩
  simp only [UInt8.toNat_div, UInt8.toNat_mod, UInt8.reduceToNat]
  omega

/-- The digits of a byte go to three cells. -/
private theorem read_digits_of_outside (memory : Ram) (a : Address) (byte : UInt8) {b : Address}
    (h₀ : b ≠ a) (h₁ : b ≠ a + 1) (h₂ : b ≠ a + 2) :
    (memory.writeBlock a (decimalDigits byte)).read b = memory.read b := by
  apply Memory.read_writeBlock_of_outside
  intro k hk
  have hk : k < 3 := hk
  -- The block has three cells, which are named one by one.
  obtain rfl | rfl | rfl : k = 0 ∨ k = 1 ∨ k = 2 := by omega
  · rwa [Address.add_ofNat_zero]
  · exact h₁
  · exact h₂

/-- The digits of a byte are loaded from where they were stored. -/
private theorem load_digits (v : Registers) (memory : Ram) (a : Address) (byte : UInt8) :
    let loaded :=
      v.writeFrom 0 ((memory.writeBlock a (decimalDigits byte)).block a ((0x2 : Register).val + 1))
    (loaded.read 0x0).toNat ≤ 9 ∧ (loaded.read 0x1).toNat ≤ 9 ∧ (loaded.read 0x2).toNat ≤ 9 ∧
      100 * (loaded.read 0x0).toNat + 10 * (loaded.read 0x1).toNat + (loaded.read 0x2).toNat =
        byte.toNat := by
  intro loaded
  obtain ⟨hundreds, tens, ones, hdigits, hh, ht, ho, hvalue⟩ := decimalDigits_eq byte
  obtain ⟨hread₀, hread₁, hread₂⟩ := v.read_load_three memory a hundreds tens ones
  rw [← hdigits] at hread₀ hread₁ hread₂
  rw [hread₀, hread₁, hread₂]
  exact ⟨hh, ht, ho, hvalue⟩

variable {ρ : Type} [ByteSource ρ]

/-- A word `Fx55` stores the registers up to `x`. -/
private theorem execute_store (m : Machine ρ) (x : Register) :
    m.execute (.ofWord ⟨0xF, x, 0x5, 0x5⟩) =
      .ok (following { m with
        memory := m.memory.writeBlock m.index (m.registers.toList.take (x.val + 1)) }) := rfl

/-- A word `Fx65` loads the registers up to `x`. -/
private theorem execute_load (m : Machine ρ) (x : Register) :
    m.execute (.ofWord ⟨0xF, x, 0x6, 0x5⟩) =
      .ok (m.setRegisters (m.registers.writeFrom 0 (m.memory.block m.index (x.val + 1)))) := rfl

/-- A word `Fx33` stores the digits of its register. -/
private theorem execute_decimal (m : Machine ρ) (x : Register) :
    m.execute (.ofWord ⟨0xF, x, 0x3, 0x3⟩) =
      .ok (following { m with
        memory := m.memory.writeBlock m.index (decimalDigits (m.registers.read x)) }) := rfl

/-- Storing what was loaded changes nothing at all. -/
private theorem execute_store_of_loaded {m : Machine ρ} {v : Registers} {x : Register}
    (h : ∀ r ≤ x, m.registers.read r =
      (v.writeFrom 0 (m.memory.block m.index (x.val + 1))).read r) :
    m.execute (.ofWord ⟨0xF, x, 0x5, 0x5⟩) = .ok (following m) := by
  -- The registers that are stored are the block that was loaded, which is still there.
  have hblock : m.registers.toList.take (x.val + 1) = m.memory.block m.index (x.val + 1) := by
    have hload := v.take_writeFrom (m.memory.block m.index (x.val + 1))
      (by rw [Memory.length_block]; omega)
    rw [Memory.length_block] at hload
    exact (Registers.take_eq_of_agree h).trans hload
  rw [execute_store, hblock, Memory.writeBlock_block]

/-- Stored registers can be loaded again, whatever has become of them in the meantime, and the
    registers behind `x` keep their values; loaded registers can be stored again without a change;
    exactly the cells of a block change; and the decimal digits of a register are read back as
    digits of its value. The machine may do anything between the two transfers of a pair, as long as
    the cells and the index stay as they are. -/
theorem transfers_roundTrip (m : Machine ρ) (x : Register) :
    (∃ memory,
      m.execute (.ofWord ⟨0xF, x, 0x5, 0x5⟩) =
        .ok { next := m.pc.val + 2, machine := { m with memory } } ∧
      (∀ r ≤ x, memory.read (m.index + Fin.ofNat 4096 r.val) = m.registers.read r) ∧
      (∀ a, (∀ r ≤ x, a ≠ m.index + Fin.ofNat 4096 r.val) → memory.read a = m.memory.read a) ∧
      ∀ later : Machine ρ, later.memory = memory → later.index = m.index →
        ∃ registers,
          later.execute (.ofWord ⟨0xF, x, 0x6, 0x5⟩) =
            .ok { next := later.pc.val + 2, machine := { later with registers } } ∧
          ∀ r, registers.read r =
            if r ≤ x then m.registers.read r else later.registers.read r) ∧
    (∃ registers,
      m.execute (.ofWord ⟨0xF, x, 0x6, 0x5⟩) =
        .ok { next := m.pc.val + 2, machine := { m with registers } } ∧
      ∀ later : Machine ρ, later.memory = m.memory → later.index = m.index →
        (∀ r ≤ x, later.registers.read r = registers.read r) →
        later.execute (.ofWord ⟨0xF, x, 0x5, 0x5⟩) =
          .ok { next := later.pc.val + 2, machine := later }) ∧
    ∃ memory,
      m.execute (.ofWord ⟨0xF, x, 0x3, 0x3⟩) =
        .ok { next := m.pc.val + 2, machine := { m with memory } } ∧
      (∀ a, a ≠ m.index → a ≠ m.index + 1 → a ≠ m.index + 2 →
        memory.read a = m.memory.read a) ∧
      ∀ later : Machine ρ, later.memory = memory → later.index = m.index →
        ∃ registers,
          later.execute (.ofWord ⟨0xF, 0x2, 0x6, 0x5⟩) =
            .ok { next := later.pc.val + 2, machine := { later with registers } } ∧
          (registers.read 0x0).toNat ≤ 9 ∧ (registers.read 0x1).toNat ≤ 9 ∧
          (registers.read 0x2).toNat ≤ 9 ∧
          100 * (registers.read 0x0).toNat + 10 * (registers.read 0x1).toNat +
            (registers.read 0x2).toNat = (m.registers.read x).toNat := by
  -- Each of the three transfers says what it writes; the way back is read off that.
  refine ⟨⟨_, m.execute_store x, fun r hr => m.registers.read_store _ _ hr,
    fun a ha => m.registers.read_store_of_outside _ _ ha, ?_⟩, ?_, ?_⟩
  · intro later hmemory hindex
    refine ⟨_, later.execute_load x, fun r => ?_⟩
    rw [Registers.read_load]
    by_cases hr : r ≤ x
    · rw [if_pos hr, if_pos hr, hmemory, hindex, Registers.read_store _ _ _ hr]
    · rw [if_neg hr, if_neg hr]
  · refine ⟨_, m.execute_load x, fun later hmemory hindex hregisters => ?_⟩
    rw [← hmemory, ← hindex] at hregisters
    exact execute_store_of_loaded hregisters
  · refine ⟨_, m.execute_decimal x,
      fun a h₀ h₁ h₂ => read_digits_of_outside _ _ _ h₀ h₁ h₂, fun later hmemory hindex => ?_⟩
    refine ⟨_, later.execute_load 0x2, ?_⟩
    rw [hmemory, hindex]
    exact load_digits _ _ _ _

/-- Two registers are stored across the top of memory and loaded again after a reset of the
    registers, stored back when they were loaded from there, and the digits of the second register
    end in the cells behind the first ones. -/
theorem transfers_roundTrip_acrossTop :
    ∃ m : Machine Replay,
      m = { fresh (Replay.ofInts [7]) with
        registers := (Registers.zero.write 0x0 5).write 0x1 206, index := 0xFFF } ∧
      (∃ memory, memory.read 0xFFF = 5 ∧ memory.read 0x000 = 206 ∧
        ∃ registers,
          Machine.execute { m with memory, registers := .zero } (.ofWord ⟨0xF, 0x1, 0x6, 0x5⟩) =
            .ok { next := m.pc.val + 2, machine := { m with memory, registers } } ∧
          registers.read 0x0 = 5 ∧ registers.read 0x1 = 206) ∧
      (∃ registers,
        m.execute (.ofWord ⟨0xF, 0x1, 0x6, 0x5⟩) =
          .ok { next := m.pc.val + 2, machine := { m with registers } } ∧
        Machine.execute { m with registers } (.ofWord ⟨0xF, 0x1, 0x5, 0x5⟩) =
          .ok { next := m.pc.val + 2, machine := { m with registers } }) ∧
      ∃ memory registers, memory.read 0x002 = m.memory.read 0x002 ∧
        Machine.execute { m with memory } (.ofWord ⟨0xF, 0x2, 0x6, 0x5⟩) =
          .ok { next := m.pc.val + 2, machine := { m with memory, registers } } ∧
        100 * (registers.read 0x0).toNat + 10 * (registers.read 0x1).toNat +
          (registers.read 0x2).toNat = 206 := by
  obtain ⟨m, hm⟩ : ∃ m : Machine Replay, m = { fresh (Replay.ofInts [7]) with
      registers := (Registers.zero.write 0x0 5).write 0x1 206, index := 0xFFF } := ⟨_, rfl⟩
  obtain ⟨hindex, hv₀, hv₁⟩ : m.index = 0xFFF ∧ m.registers.read 0x0 = 5 ∧
      m.registers.read 0x1 = 206 := by
    rw [hm]
    decide
  obtain ⟨⟨memory, -, hcells, -, hload⟩, ⟨loaded, hloaded, hstore⟩, digits, -, hkept, hdigits⟩ :=
    transfers_roundTrip m 0x1
  refine ⟨m, hm, ⟨memory, ?_, ?_, ?_⟩, ⟨loaded, hloaded, ?_⟩, digits, ?_⟩
  · have hcell := hcells 0x0 (by decide)
    rwa [hindex, hv₀] at hcell
  · have hcell := hcells 0x1 (by decide)
    rwa [hindex, hv₁] at hcell
  · obtain ⟨registers, hexecute, hread⟩ := hload { m with memory, registers := .zero } rfl rfl
    refine ⟨registers, hexecute, ?_, ?_⟩
    · rw [hread, if_pos (by decide), hv₀]
    · rw [hread, if_pos (by decide), hv₁]
  · exact hstore { m with registers := loaded } rfl rfl fun _ _ => rfl
  · obtain ⟨registers, hexecute, -, -, -, hvalue⟩ := hdigits { m with memory := digits } rfl rfl
    refine ⟨registers, ?_, hexecute, ?_⟩
    · apply hkept <;> rw [hindex] <;> decide
    · rw [hvalue, hv₁]
      rfl

end Machine

end Chip8
