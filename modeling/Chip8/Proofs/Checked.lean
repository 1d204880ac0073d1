import Chip8.Proofs.Execute
import Chip8.Screen.Canvas

/-!
# Checked execution

`Machine.execute` reads and writes by registers and addresses that cannot be out of range, on bytes
that cannot overflow. `Machine.executeChecked` carries out the same instructions the way a host
would have to: registers and cells are named by integers, every access may be refused, arithmetic is
unbounded until a write reduces it, and an instruction that no group handles is refused by the last
one. The two agree, so no access of any instruction is ever refused and no instruction is left over.

## Key results

- `Machine.word?_pc`: a fetch is never refused
- `Machine.executeChecked_eq`: checked execution is execution
-/

namespace Chip8

/-- Why an instruction stopped whose accesses are checked. -/
inductive Slip
  | obstacle (obstacle : Obstacle)
  | register (error : RegisterError)
  | memory (error : MemoryError)
  | screen (error : CanvasError)
  -- Nothing handles it.
  | unhandled (mnemonic : String)
deriving DecidableEq, Repr

/-- A result is handed on as it is. -/
theorem ok_bind {ε α β : Type} (a : α) (f : α → Except ε β) : (Except.ok a >>= f) = f a := rfl

/-- What succeeded did not fail with another error. -/
theorem mapError_ok {ε δ α : Type} (f : ε → δ) (a : α) :
    (Except.ok a : Except ε α).mapError f = .ok a := rfl

/-! ## Bytes and integers -/

/-- A natural number is reduced to the same byte as an integer. -/
theorem Byte.ofInt_natCast (n : Nat) : UInt8.ofInt (n : Int) = UInt8.ofNat n := by
  apply UInt8.toNat_inj.1
  simp only [UInt8.ofInt, UInt8.toNat_ofNat']
  omega

/-- A byte is its own reduction. -/
@[simp] theorem Byte.ofInt_toNat (a : UInt8) : UInt8.ofInt (a.toNat : Int) = a := by
  rw [Byte.ofInt_natCast, UInt8.ofNat_toNat]

/-- The difference of two bytes is reduced to their difference as bytes. -/
private theorem Byte.ofInt_toNat_sub (a b : UInt8) :
    UInt8.ofInt ((a.toNat : Int) - b.toNat) = a - b := by
  rw [Int.sub_eq_add_neg, UInt8.ofInt_add, UInt8.ofInt_neg, Byte.ofInt_toNat, Byte.ofInt_toNat,
    UInt8.sub_eq_add_neg]

/-- The lowest bit of a byte is a byte. -/
private theorem Byte.ofInt_lowBit (a : UInt8) :
    UInt8.ofInt ((a.toNat &&& 1 : Nat) : Int) = a &&& 1 := by
  rw [← Byte.ofInt_toNat (a &&& 1), UInt8.toNat_and]
  rfl

/-- The highest bit of a byte is what remains after a shift by seven. -/
private theorem Byte.ofInt_highBit (a : UInt8) :
    UInt8.ofInt ((a.toNat >>> 7 &&& 1 : Nat) : Int) = a >>> 7 := by
  have ha := a.toNat_lt
  -- What is left of a byte after seven places is a bit, so that the mask does nothing.
  have hbit : a.toNat >>> 7 &&& 1 = a.toNat >>> 7 := by
    rw [Nat.and_one_is_mod, Nat.shiftRight_eq_div_pow]
    omega
  rw [← Byte.ofInt_toNat (a >>> 7), UInt8.toNat_shiftRight, hbit]
  rfl

/-- A shift to the right drops the lowest bit. -/
private theorem Byte.ofInt_shiftRight_one (a : UInt8) :
    UInt8.ofInt ((a.toNat >>> 1 : Nat) : Int) = a >>> 1 := by
  rw [← Byte.ofInt_toNat (a >>> 1), UInt8.toNat_shiftRight]
  rfl

/-- A shift to the left drops what leaves the byte. -/
private theorem Byte.ofInt_shiftLeft_one (a : UInt8) :
    UInt8.ofInt ((a.toNat <<< 1 : Nat) : Int) = a <<< 1 := by
  rw [Byte.ofInt_natCast, UInt8.ofNat_shiftLeft _ _ (by decide), UInt8.ofNat_toNat]
  rfl

/-- A flag is written as one or zero. -/
private theorem Alu.ofInt_flag (p : Prop) [Decidable p] :
    UInt8.ofInt (if p then 1 else 0) = flag (decide p) := by
  by_cases h : p
  · simp only [h, if_true, decide_true]
    rfl
  · simp only [h, if_false, decide_false]
    rfl

/-! ## The screen as a canvas -/

namespace Canvas

/-- The screen, with a geometry that is looked up. -/
def ofScreen (s : Screen) : Canvas :=
  { width := 64, height := 32, pixels := s }

/-- The screen that a canvas is, if it has the geometry of one. -/
def toScreen? (c : Canvas) : Except CanvasError Screen :=
  match c with
  | { width := 64, height := 32, pixels } => .ok pixels
  | _ => .error .noSize

/-- The screen is found again in the canvas that was made of it. -/
@[simp] theorem toScreen?_ofScreen (s : Screen) : (ofScreen s).toScreen? = .ok s := rfl

/-- No sprite is refused by the screen. -/
@[simp] theorem draw?_ofScreen (s : Screen) (x y : Int) (sprite : List UInt8) :
    (ofScreen s).draw? x y sprite =
      .ok ((s.draw x y sprite).1, ofScreen (s.draw x y sprite).2) := by
  have : NeZero (ofScreen s).width.toNat := ⟨by simp [ofScreen]⟩
  have : NeZero (ofScreen s).height.toNat := ⟨by simp [ofScreen]⟩
  exact (ofScreen s).draw?_eq_ok x y sprite

end Canvas

namespace Machine

variable {ρ : Type}

/-! ## Checked accesses -/

/-- The value of the register that an integer names. -/
def readRegister (m : Machine ρ) (r : Int) : Except Slip Nat := do
  let byte ← (m.registers.read? r).mapError .register
  return byte.toNat

/-- Sets the register that an integer names to a value modulo 256. -/
def writeRegister (m : Machine ρ) (r value : Int) : Except Slip (Machine ρ) := do
  let registers ← (m.registers.write? r value).mapError .register
  return { m with registers }

/-- The byte at an address modulo 4096. -/
def peek (m : Machine ρ) (address : Int) : Except Slip Nat := do
  let byte ← (m.memory.get? address).mapError .memory
  return byte.toNat

/-- Stores a value modulo 256 at an address modulo 4096. -/
def poke (m : Machine ρ) (address value : Int) : Except Slip (Machine ρ) := do
  let memory ← (m.memory.set? address (UInt8.ofInt value)).mapError .memory
  return { m with memory }

/-- A register that exists is read. -/
@[simp] theorem readRegister_val (m : Machine ρ) (r : Register) :
    m.readRegister (r.val : Int) = .ok (m.registers.read r).toNat := by
  simp only [readRegister, Registers.read?, Registers.resolve?_val]
  rfl

/-- A register that exists is written, with the value reduced to a byte. -/
@[simp] theorem writeRegister_val (m : Machine ρ) (r : Register) (value : Int) :
    m.writeRegister (r.val : Int) value =
      .ok { m with registers := m.registers.write r (UInt8.ofInt value) } := by
  simp only [writeRegister, Registers.write?, Registers.resolve?_val]
  rfl

/-- Memory has a byte at every integer, taken modulo 4096. -/
@[simp] theorem peek_eq (m : Machine ρ) (address : Int) :
    m.peek address = .ok (m.memory.read (Address.ofInt address)).toNat := by
  simp only [peek, Memory.get?_ram]
  rfl

/-- Memory takes a byte at every integer, taken modulo 4096. -/
@[simp] theorem poke_eq (m : Machine ρ) (address value : Int) :
    m.poke address value =
      .ok { m with memory := m.memory.write (Address.ofInt address) (UInt8.ofInt value) } := by
  simp only [poke, Memory.set?_ram]
  rfl

/-- A fetch is never refused. -/
theorem word?_pc (m : Machine ρ) : m.memory.word? m.pc.val = .ok m.currentWord :=
  Memory.word?_ram m.memory m.pc

/-! ## Checked instructions -/

/-- Combines two registers. The operands are read before the result is written, and the flag is
    written last. -/
def combine (m : Machine ρ) (op : Alu) (x y : Register) : Except Slip (Machine ρ) := do
  let vx ← m.readRegister x.val
  let vy ← m.readRegister y.val
  match op with
  | .copy => m.writeRegister x.val vy
  | .or => m.writeRegister x.val (vx ||| vy : Nat)
  | .and => m.writeRegister x.val (vx &&& vy : Nat)
  | .xor => m.writeRegister x.val (vx ^^^ vy : Nat)
  | .add => do
    let m ← m.writeRegister x.val (vx + vy)
    m.writeRegister flagRegister.val (if 255 < vx + vy then 1 else 0)
  | .sub => do
    let m ← m.writeRegister x.val (vx - vy)
    m.writeRegister flagRegister.val (if vy ≤ vx then 1 else 0)
  | .shiftRight => do
    let m ← m.writeRegister x.val (vx >>> 1 : Nat)
    m.writeRegister flagRegister.val (vx &&& 1 : Nat)
  | .subFrom => do
    let m ← m.writeRegister x.val (vy - vx)
    m.writeRegister flagRegister.val (if vx ≤ vy then 1 else 0)
  | .shiftLeft => do
    let m ← m.writeRegister x.val (vx <<< 1 : Nat)
    m.writeRegister flagRegister.val (vx >>> 7 &&& 1 : Nat)

/-- Stores one register at its place behind the index. -/
def storeRegister (m : Machine ρ) (r : Nat) : Except Slip (Machine ρ) := do
  let value ← m.readRegister r
  m.poke (m.index.val + r) value

/-- Loads one register from its place behind the index. -/
def loadRegister (m : Machine ρ) (r : Nat) : Except Slip (Machine ρ) := do
  let value ← m.peek (m.index.val + r)
  m.writeRegister r value

/-- The instructions on timers, index and memory. Anything else is refused. -/
def executeMisc (m : Machine ρ) : Instruction → Except Slip (Machine ρ)
  | .readDelay x => m.writeRegister x.val m.timers.delay
  | .setDelay x => do
    let vx ← m.readRegister x.val
    return { m with timers := { m.timers with delay := vx } }
  | .setSound x => do
    let vx ← m.readRegister x.val
    return { m with timers := { m.timers with sound := vx } }
  | .addIndex x => do
    let vx ← m.readRegister x.val
    return { m with index := Address.ofInt (m.index.val + vx) }
  | .glyph x => do
    let vx ← m.readRegister x.val
    return { m with index := Address.ofInt (Font.glyphAddress vx) }
  | .decimal x => do
    let vx ← m.readRegister x.val
    let m ← m.poke m.index.val (vx / 100 : Nat)
    let m ← m.poke (m.index.val + 1) (vx / 10 % 10 : Nat)
    m.poke (m.index.val + 2) (vx % 10 : Nat)
  | .store x => (List.range (x.val + 1)).foldlM storeRegister m
  | .load x => (List.range (x.val + 1)).foldlM loadRegister m
  | i => .error (.unhandled i.mnemonic)

/-! ## Agreement of the parts -/

/-- Unbounded arithmetic that is reduced when it is written is arithmetic on bytes. -/
private theorem combine_eq (m : Machine ρ) (op : Alu) (x y : Register) :
    m.combine op x y = .ok { m with registers := m.registers.apply op x y } := by
  simp only [combine, readRegister_val, bind, Except.bind]
  -- One case for each operation: the value written is reduced once, the flag is a comparison.
  cases op with
  | copy => simp only [writeRegister_val, Byte.ofInt_toNat]; rfl
  | or => simp only [writeRegister_val, ← UInt8.toNat_or, Byte.ofInt_toNat]; rfl
  | and => simp only [writeRegister_val, ← UInt8.toNat_and, Byte.ofInt_toNat]; rfl
  | xor => simp only [writeRegister_val, ← UInt8.toNat_xor, Byte.ofInt_toNat]; rfl
  | add =>
    simp only [writeRegister_val, UInt8.ofInt_add, Byte.ofInt_toNat, Alu.ofInt_flag]
    rfl
  | sub =>
    simp only [writeRegister_val, Byte.ofInt_toNat_sub, Alu.ofInt_flag, ← UInt8.le_iff_toNat_le]
    rfl
  | shiftRight =>
    simp only [writeRegister_val, Byte.ofInt_shiftRight_one, Byte.ofInt_lowBit]
    rfl
  | subFrom =>
    simp only [writeRegister_val, Byte.ofInt_toNat_sub, Alu.ofInt_flag, ← UInt8.le_iff_toNat_le]
    rfl
  | shiftLeft =>
    simp only [writeRegister_val, Byte.ofInt_shiftLeft_one, Byte.ofInt_highBit]
    rfl

/-- One register is stored in the cell at its own distance from the index. -/
private theorem storeRegister_eq (m : Machine ρ) {r : Nat} (h : r < 16) :
    m.storeRegister r =
      .ok { m with
        memory := m.memory.write (m.index + Fin.ofNat 4096 r) (m.registers.read ⟨r, h⟩) } := by
  have hr : m.readRegister (r : Int) = .ok (m.registers.read ⟨r, h⟩).toNat :=
    m.readRegister_val ⟨r, h⟩
  simp only [storeRegister, hr, ok_bind, poke_eq, Byte.ofInt_toNat, Address.ofInt_add_val]

/-- One register is loaded from the cell at its own distance from the index. -/
private theorem loadRegister_eq (m : Machine ρ) {r : Nat} (h : r < 16) :
    m.loadRegister r =
      .ok { m with
        registers := m.registers.write ⟨r, h⟩ (m.memory.read (m.index + Fin.ofNat 4096 r)) } := by
  have hw : ∀ value, m.writeRegister (r : Int) value =
      .ok { m with registers := m.registers.write ⟨r, h⟩ (UInt8.ofInt value) } :=
    m.writeRegister_val ⟨r, h⟩
  simp only [loadRegister, hw, ok_bind, peek_eq, Byte.ofInt_toNat, Address.ofInt_add_val]

/-- The loop that stores registers one by one stores them as a block. -/
private theorem foldlM_storeRegister (m : Machine ρ) (first count : Nat) (h : first + count ≤ 16) :
    (List.range' first count).foldlM storeRegister m =
      .ok { m with
        memory := m.memory.writeBlock (m.index + Fin.ofNat 4096 first)
          ((m.registers.toList.drop first).take count) } := by
  -- Induction on the count, for every first register and the machine that is left by then.
  induction count generalizing m first with
  | zero => rfl
  | succ count ih =>
    have hfirst : first < 16 := by omega
    have hdrop : m.registers.toList.drop first =
        m.registers.read ⟨first, hfirst⟩ :: m.registers.toList.drop (first + 1) :=
      List.drop_eq_getElem_cons (by rw [Registers.length_toList]; exact hfirst)
    rw [List.range'_succ, List.foldlM_cons, storeRegister_eq m hfirst, ok_bind,
      ih _ _ (by omega), hdrop, List.take_succ_cons, Address.add_ofNat_succ]
    rfl

/-- The loop that loads registers one by one loads them as a block. -/
private theorem foldlM_loadRegister (m : Machine ρ) (first count : Nat) (h : first + count ≤ 16) :
    (List.range' first count).foldlM loadRegister m =
      .ok { m with
        registers := m.registers.writeFrom first
          ((List.range' first count).map fun i =>
            m.memory.read (m.index + Fin.ofNat 4096 i)) } := by
  -- Induction on the count, as for storing; what is loaded does not change what is loaded next.
  induction count generalizing m first with
  | zero => rfl
  | succ count ih =>
    have hfirst : first < 16 := by omega
    -- The list writes by plain numbers, the machine by registers that exist.
    have hwrite : ∀ value, (⟨m.registers.cells.setIfInBounds first value⟩ : Registers) =
        m.registers.write ⟨first, hfirst⟩ value := by
      intro value
      simp only [Registers.write, Registers.mk.injEq]
      apply Vector.ext
      intro i hi
      rw [Vector.getElem_setIfInBounds, Vector.getElem_set]
    rw [List.range'_succ, List.foldlM_cons, loadRegister_eq m hfirst, ok_bind, ih _ _ (by omega),
      List.map_cons]
    simp only [Registers.writeFrom, hwrite]

/-- Storing the digits one by one stores them as a block. -/
private theorem executeMisc_decimal (m : Machine ρ) (x : Register) :
    m.executeMisc (.decimal x) =
      .ok { m with
        memory := m.memory.writeBlock m.index (decimalDigits (m.registers.read x)) } := by
  -- The three digits, as the quotients that they are for the byte itself.
  have h100 : UInt8.ofInt (((m.registers.read x).toNat / 100 : Nat) : Int) =
      m.registers.read x / 100 := by
    rw [← Byte.ofInt_toNat (m.registers.read x / 100), UInt8.toNat_div]
    rfl
  have h10 : UInt8.ofInt (((m.registers.read x).toNat / 10 % 10 : Nat) : Int) =
      m.registers.read x / 10 % 10 := by
    rw [← Byte.ofInt_toNat (m.registers.read x / 10 % 10), UInt8.toNat_mod, UInt8.toNat_div]
    rfl
  have h1 : UInt8.ofInt (((m.registers.read x).toNat % 10 : Nat) : Int) =
      m.registers.read x % 10 := by
    rw [← Byte.ofInt_toNat (m.registers.read x % 10), UInt8.toNat_mod]
    rfl
  have hnext : Address.ofInt ((m.index.val : Int) + 1) = m.index + 1 :=
    Address.ofInt_add_val m.index 1
  have hlast : Address.ofInt ((m.index.val : Int) + 2) = m.index + 1 + 1 := by
    apply Fin.ext
    simp only [Address.val_ofInt, Fin.val_add, Fin.val_one]
    omega
  simp only [executeMisc, readRegister_val, ok_bind, poke_eq, h100, h10, h1, hnext, hlast,
    Address.ofInt_val]
  rfl

/-! ## Agreement -/

variable [ByteSource ρ]

/-- Executes an instruction with every access checked. -/
def executeChecked (m : Machine ρ) : Instruction → Except Slip (Effect ρ)
  | .clear => .ok (following { m with screen := .blank 64 32 })
  | .ret => do
    let (address, stack) ← (m.stack.pop m.pc.val).mapError fun f => .obstacle (.fault f)
    return { next := address, machine := { m with stack } }
  | .jump target => .ok { next := target.val, machine := m }
  | .call target => do
    let stack ← (m.stack.push ((m.pc.val + 2 : Int) % 4096) m.pc.val).mapError fun f =>
      .obstacle (.fault f)
    return { next := target.val, machine := { m with stack } }
  | .skipEqByte x byte => do
    let vx ← m.readRegister x.val
    return m.skipIf (vx = byte.toNat)
  | .skipNeByte x byte => do
    let vx ← m.readRegister x.val
    return m.skipIf (vx ≠ byte.toNat)
  | .skipEq x y => do
    let vx ← m.readRegister x.val
    let vy ← m.readRegister y.val
    return m.skipIf (vx = vy)
  | .skipNe x y => do
    let vx ← m.readRegister x.val
    let vy ← m.readRegister y.val
    return m.skipIf (vx ≠ vy)
  | .skipKey x => do
    let vx ← m.readRegister x.val
    return m.skipIf (m.keypad.isDown vx)
  | .skipNoKey x => do
    let vx ← m.readRegister x.val
    return m.skipIf (!m.keypad.isDown vx)
  | .loadByte x byte => do
    let m ← m.writeRegister x.val byte.toNat
    return m.following
  | .addByte x byte => do
    let vx ← m.readRegister x.val
    let m ← m.writeRegister x.val (vx + byte.toNat)
    return m.following
  | .alu op x y => do
    let m ← m.combine op x y
    return m.following
  | .loadIndex value => .ok (following { m with index := value })
  | .jumpPlus base => do
    let v0 ← m.readRegister 0
    return { next := (base.val + v0 : Int) % 4096, machine := m }
  | .random x mask => do
    let (byte, random) ← (ByteSource.draw? m.random).mapError fun e => .obstacle (.source e)
    let m ← { m with random }.writeRegister x.val (byte.toNat &&& mask.toNat : Nat)
    return m.following
  | .draw x y rows => do
    let sprite ← (m.memory.block? m.index.val rows.val).mapError .memory
    let vx ← m.readRegister x.val
    let vy ← m.readRegister y.val
    let (hit, canvas) ← ((Canvas.ofScreen m.screen).draw? vx vy sprite).mapError .screen
    let screen ← canvas.toScreen?.mapError .screen
    let m ← { m with screen }.writeRegister flagRegister.val (if hit then 1 else 0)
    return m.following
  | .waitKey x =>
    if m.awaitingKey then
      match m.keypad.firstHeld with
      | none => .ok { next := m.pc.val, machine := m }
      | some key => do
        let m ← m.writeRegister x.val key.val
        return { next := m.pc.val + 2, machine := { m with keypad := m.keypad.endWait },
                 note := some (.keyStored key x) }
    else
      .ok { next := m.pc.val, machine := { m with keypad := m.keypad.beginWait x.val },
            note := some (.awaitingKey x) }
  | .undefined word => .ok { m.following with note := some (.undefinedWord word m.pc) }
  | i => do
    let m ← m.executeMisc i
    return m.following

/-- An instruction with its accesses checked does what it does without. -/
def Agrees (m : Machine ρ) (i : Instruction) : Prop :=
  m.executeChecked i = (m.execute i).mapError .obstacle

/-- Returns and calls fault in the same cases, and jumps lead to the same address. -/
private theorem agrees_flow (m : Machine ρ) (target base : Address) :
    m.Agrees .ret ∧ m.Agrees (.call target) ∧ m.Agrees (.jumpPlus base) := by
  refine ⟨?_, ?_, ?_⟩
  · simp only [Agrees, executeChecked, execute]
    cases m.stack.pop m.pc.val <;> rfl
  · -- The return address is taken round the top of memory in both.
    have hpc : ((m.pc.val : Int) + 2) % 4096 = (m.pc + 2).val := by
      simp only [Fin.val_add]
      omega
    simp only [Agrees, executeChecked, execute, hpc]
    cases m.stack.push (m.pc + 2).val m.pc.val <;> rfl
  · have hv : m.readRegister 0 = .ok (m.registers.read 0).toNat := m.readRegister_val 0
    have hnext : ((base.val : Int) + (m.registers.read 0).toNat) % 4096 =
        (base + Address.ofInt (m.registers.read 0).toNat).val := by
      simp only [Fin.val_add, Address.val_ofInt]
      omega
    simp only [Agrees, executeChecked, hv, ok_bind, hnext]
    rfl

/-- Skips compare the same values. -/
private theorem agrees_skip (m : Machine ρ) (x y : Register) (byte : UInt8) :
    (m.Agrees (.skipEqByte x byte) ∧ m.Agrees (.skipNeByte x byte)) ∧
      (m.Agrees (.skipEq x y) ∧ m.Agrees (.skipNe x y)) ∧
      m.Agrees (.skipKey x) ∧ m.Agrees (.skipNoKey x) := by
  -- Registers are compared as integers here and as bytes there.
  refine ⟨⟨?_, ?_⟩, ⟨?_, ?_⟩, ?_, ?_⟩
  · simp only [Agrees, executeChecked, readRegister_val, ok_bind, UInt8.toNat_inj]
    rfl
  · simp only [Agrees, executeChecked, readRegister_val, ok_bind, ne_eq, UInt8.toNat_inj]
    rfl
  · simp only [Agrees, executeChecked, readRegister_val, ok_bind, UInt8.toNat_inj]
    rfl
  · simp only [Agrees, executeChecked, readRegister_val, ok_bind, ne_eq, UInt8.toNat_inj]
    rfl
  · simp only [Agrees, executeChecked, readRegister_val, ok_bind]
    rfl
  · simp only [Agrees, executeChecked, readRegister_val, ok_bind]
    rfl

/-- What is written to a register is reduced to a byte, so that sums wrap in the same way. -/
private theorem agrees_assign (m : Machine ρ) (op : Alu) (x y : Register) (byte : UInt8) :
    m.Agrees (.loadByte x byte) ∧ m.Agrees (.addByte x byte) ∧ m.Agrees (.alu op x y) := by
  refine ⟨?_, ?_, ?_⟩
  · simp only [Agrees, executeChecked, writeRegister_val, ok_bind, Byte.ofInt_toNat]
    rfl
  · simp only [Agrees, executeChecked, readRegister_val, writeRegister_val, ok_bind,
      UInt8.ofInt_add, Byte.ofInt_toNat]
    rfl
  · simp only [Agrees, executeChecked, combine_eq, ok_bind]
    rfl

/-- A draw is refused in the same cases, and the byte is masked in the same way. -/
private theorem agrees_random (m : Machine ρ) (x : Register) (mask : UInt8) :
    m.Agrees (.random x mask) := by
  simp only [Agrees, executeChecked, execute]
  cases ByteSource.draw? m.random with
  | error error => rfl
  | ok draw =>
    simp only [mapError_ok, ok_bind, writeRegister_val, ← UInt8.toNat_and, Byte.ofInt_toNat]
    rfl

/-- The sprite is read from memory and drawn on the screen without an access outside. -/
private theorem agrees_draw (m : Machine ρ) (x y : Register) (rows : Nibble) :
    m.Agrees (.draw x y rows) := by
  simp only [Agrees, executeChecked, Memory.block?_ram, Address.ofInt_val, mapError_ok, ok_bind,
    readRegister_val, Canvas.draw?_ofScreen, Canvas.toScreen?_ofScreen, writeRegister_val,
    Alu.ofInt_flag, Int.toNat_natCast, Bool.decide_eq_true]
  rfl

/-- A wait writes to its register only when a poll finds a key. -/
private theorem agrees_waitKey (m : Machine ρ) (x : Register) : m.Agrees (.waitKey x) := by
  simp only [Agrees, executeChecked, execute, pollKey]
  by_cases hw : m.awaitingKey = true
  · rw [if_pos hw, if_pos hw]
    cases m.keypad.firstHeld with
    | none => rfl
    | some key =>
      simp only [writeRegister_val, ok_bind, Byte.ofInt_natCast]
      rfl
  · rw [if_neg hw, if_neg hw]
    rfl

/-- Timers take and give the value of a register. -/
private theorem agrees_timer (m : Machine ρ) (x : Register) :
    m.Agrees (.readDelay x) ∧ m.Agrees (.setDelay x) ∧ m.Agrees (.setSound x) := by
  refine ⟨?_, ?_, ?_⟩
  · simp only [Agrees, executeChecked, executeMisc, writeRegister_val, ok_bind]
    rfl
  · simp only [Agrees, executeChecked, executeMisc, readRegister_val, ok_bind]
    rfl
  · simp only [Agrees, executeChecked, executeMisc, readRegister_val, ok_bind]
    rfl

/-- The index is reduced to an address. -/
private theorem agrees_index (m : Machine ρ) (x : Register) :
    m.Agrees (.addIndex x) ∧ m.Agrees (.glyph x) := by
  have hindex : Address.ofInt ((m.index.val : Int) + (m.registers.read x).toNat) =
      m.index + Address.ofInt (m.registers.read x).toNat := by
    apply Fin.ext
    simp only [Fin.val_add, Address.val_ofInt]
    omega
  refine ⟨?_, ?_⟩
  · simp only [Agrees, executeChecked, executeMisc, readRegister_val, ok_bind, hindex]
    rfl
  · simp only [Agrees, executeChecked, executeMisc, readRegister_val, ok_bind]
    rfl

/-- Transfers go cell by cell here and as a block there. -/
private theorem agrees_transfer (m : Machine ρ) (x : Register) :
    m.Agrees (.decimal x) ∧ m.Agrees (.store x) ∧ m.Agrees (.load x) := by
  -- Both loops go over the registers from zero on, as `range` does.
  have hx := x.isLt
  refine ⟨?_, ?_, ?_⟩
  · simp only [Agrees, executeChecked, executeMisc_decimal, ok_bind]
    rfl
  · simp only [Agrees, executeChecked, executeMisc, List.range_eq_range']
    rw [foldlM_storeRegister m 0 (x.val + 1) (by omega), Address.add_ofNat_zero]
    rfl
  · simp only [Agrees, executeChecked, executeMisc, List.range_eq_range']
    rw [foldlM_loadRegister m 0 (x.val + 1) (by omega), ← List.range_eq_range']
    rfl

/-- No access of an instruction is ever refused, and no instruction is left over. -/
theorem executeChecked_eq (m : Machine ρ) (i : Instruction) :
    m.executeChecked i = (m.execute i).mapError .obstacle := by
  -- One case for each instruction; the families above have done the work.
  cases i with
  | ret => exact (m.agrees_flow 0 0).1
  | call target => exact (m.agrees_flow target 0).2.1
  | jumpPlus base => exact (m.agrees_flow 0 base).2.2
  | skipEqByte x byte => exact (m.agrees_skip x x byte).1.1
  | skipNeByte x byte => exact (m.agrees_skip x x byte).1.2
  | skipEq x y => exact (m.agrees_skip x y 0).2.1.1
  | skipNe x y => exact (m.agrees_skip x y 0).2.1.2
  | skipKey x => exact (m.agrees_skip x x 0).2.2.1
  | skipNoKey x => exact (m.agrees_skip x x 0).2.2.2
  | loadByte x byte => exact (m.agrees_assign .copy x x byte).1
  | addByte x byte => exact (m.agrees_assign .copy x x byte).2.1
  | alu op x y => exact (m.agrees_assign op x y 0).2.2
  | random x mask => exact m.agrees_random x mask
  | draw x y rows => exact m.agrees_draw x y rows
  | waitKey x => exact m.agrees_waitKey x
  | readDelay x => exact (m.agrees_timer x).1
  | setDelay x => exact (m.agrees_timer x).2.1
  | setSound x => exact (m.agrees_timer x).2.2
  | addIndex x => exact (m.agrees_index x).1
  | glyph x => exact (m.agrees_index x).2
  | decimal x => exact (m.agrees_transfer x).1
  | store x => exact (m.agrees_transfer x).2.1
  | load x => exact (m.agrees_transfer x).2.2
  -- The other instructions access nothing that could be refused.
  | clear | jump target | loadIndex value | undefined word => rfl

end Machine

end Chip8
