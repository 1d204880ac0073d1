import Chip8.Disassembly
import Mathlib.Data.List.FinRange

/-!
# The listing around an address

A listing shows as many words as are asked for, two addresses apart, and wraps at both ends of
memory. It has no gaps, as every address of the machine's memory has a cell. The line with the
address that was asked for comes again every 2048 lines, so that a listing of at most that many
lines has it once.

## Key results

- `Listing.window_ram`: the lines of a listing
- `Listing.windowAddress_eq_iff`: which of them have the address that was asked for
- `Listing.filter_current`: the current line of a listing
- `Listing.window_around`: what a listing is
-/

namespace Chip8

/-- The one element of a table that a test picks out. -/
private theorem filter_ofFn_eq_singleton {α : Type} {n : Nat} {f : Fin n → α} {p : α → Bool}
    (i : Fin n) (h : ∀ j, p (f j) = true ↔ j = i) : (List.ofFn f).filter p = [f i] := by
  -- The test is that for being at the place `i`, and every place occurs once.
  have htest : p ∘ f = (· == i) := by
    funext j
    rw [Bool.eq_iff_iff, beq_iff_eq]
    exact h j
  have honce : (List.finRange n).count i = 1 :=
    List.count_eq_one_of_mem (List.nodup_finRange n) (List.mem_finRange i)
  rw [List.ofFn_eq_map, List.filter_map, htest, List.filter_beq, honce]
  rfl

namespace Listing

/-- Line `i` of a listing of the machine's memory. -/
def windowLine (m : Ram) (center count : Int) (i : Nat) : Line :=
  let a := windowAddress center count i
  { address := a.val, word := m.word a, current := (a.val : Int) = center }

/-- A listing of the machine's memory has all its lines. -/
theorem window_ram (m : Ram) (center count : Int) :
    window m center count =
      .ok (List.ofFn fun i : Fin count.toNat => windowLine m center count i) := by
  simp only [window, Memory.word?_ram]
  exact List.ofFnM_pure

/-- The address that was asked for stands in the middle line, and in every line that is a multiple
    of 2048 lines away from it. -/
theorem windowAddress_eq_iff (pc : Address) (count : Int) (i : Nat) :
    windowAddress pc.val count i = pc ↔ ((i : Int) - count.fdiv 2) % 2048 = 0 := by
  rw [Fin.ext_iff, windowAddress, Address.val_ofInt]
  generalize count.fdiv 2 = middle
  omega

/-- A line is current exactly if it is a multiple of 2048 lines away from the middle one. -/
private theorem windowLine_current_iff (m : Ram) (pc : Address) (count : Int) (i : Nat) :
    (windowLine m pc.val count i).current = true ↔ ((i : Int) - count.fdiv 2) % 2048 = 0 := by
  rw [← windowAddress_eq_iff, windowLine, decide_eq_true_iff, Fin.ext_iff]
  exact Int.ofNat_inj

/-- The line of the address that was asked for. -/
def currentLine (m : Ram) (pc : Address) : Line :=
  { address := pc.val, word := m.word pc, current := true }

/-- That line stands in every such place. -/
theorem windowLine_of_current {m : Ram} {pc : Address} {count : Int} {i : Nat}
    (h : ((i : Int) - count.fdiv 2) % 2048 = 0) :
    windowLine m pc.val count i = currentLine m pc := by
  rw [windowLine, (windowAddress_eq_iff pc count i).2 h]
  simp only [decide_true]
  rfl

/-- A listing of at most 2048 lines has one current line. -/
theorem filter_current (m : Ram) (pc : Address) {count : Nat} (hpos : 0 < count)
    (hsize : count ≤ 2048) :
    (List.ofFn fun i : Fin count => windowLine m pc.val count i).filter (·.current) =
      [currentLine m pc] := by
  -- Halving by floor division and halving a number are the same.
  have hfdiv : (count : Int).fdiv 2 = (count / 2 : Nat) := by
    rw [Int.fdiv_eq_ediv_of_nonneg _ (by decide)]
    rfl
  obtain ⟨middle, hmiddle⟩ : ∃ middle : Fin count, middle.val = count / 2 :=
    ⟨⟨count / 2, Nat.div_lt_self hpos (by decide)⟩, rfl⟩
  rw [filter_ofFn_eq_singleton middle, windowLine_of_current (by rw [hfdiv, hmiddle]; omega)]
  intro i
  rw [windowLine_current_iff, hfdiv, Fin.ext_iff, hmiddle]
  -- Within 2048 lines a distance that is a multiple of 2048 is none.
  omega

/-- A line stands for an address of memory, and for none outside it. -/
private theorem windowLine_current_eq_false {center : Int} (h : center < 0 ∨ 4096 ≤ center)
    (m : Ram) (count : Int) (i : Nat) : (windowLine m center count i).current = false := by
  have hlt := (windowAddress center count i).isLt
  simp only [windowLine, decide_eq_false_iff_not]
  omega

/-- The addresses of a listing are counted on from its middle line. -/
private theorem windowLine_address (m : Ram) (center : Int) {count : Int} (i : Nat) :
    (windowLine m center count i).address = (center + 2 * ((i : Int) - count / 2)) % 4096 := by
  have hfdiv : count.fdiv 2 = count / 2 := Int.fdiv_eq_ediv_of_nonneg count (by decide)
  simp only [windowLine, windowAddress, Address.val_ofInt, hfdiv]
  omega

/-- Within 2048 lines a listing does not come back to an address. -/
private theorem nodup_addresses (m : Ram) (center count : Int) {n : Nat} (hn : n ≤ 2048) :
    (List.ofFn fun i : Fin n => (windowLine m center count i).address).Nodup := by
  -- Lines of the same address are a multiple of 2048 lines apart.
  refine List.nodup_ofFn.2 fun i j hij => Fin.ext ?_
  simp only [windowLine_address] at hij
  omega

/-- The line of an address shows its two bytes, the second of which may lie at the bottom of
    memory. -/
def ShowsWord (m : Ram) (line : Line) : Prop :=
  ∃ high low, m.cells.toList[line.address.toNat]? = some high ∧
    m.cells.toList[((line.address + 1) % 4096).toNat]? = some low ∧
    line.word.toNat = 256 * high.toNat + low.toNat

/-- Every line shows its word. -/
private theorem showsWord_windowLine (m : Ram) (center count : Int) (i : Nat) :
    ShowsWord m (windowLine m center count i) := by
  obtain ⟨a, ha⟩ : ∃ a, windowAddress center count i = a := ⟨_, rfl⟩
  have hnext : (((a.val : Int) + 1) % 4096).toNat = (a + 1).val :=
    congrArg Fin.val (Address.ofInt_add_val a 1)
  refine ⟨m.read a, m.read (a + 1), ?_, ?_, ?_⟩
  · rw [windowLine, ha]
    exact m.getElem?_cells a
  · simp only [windowLine, ha, hnext]
    exact m.getElem?_cells (a + 1)
  · simp only [windowLine, ha, Memory.word, Word.toNat_ofBytes]
    omega

/-- What a listing is. It has as many lines as are asked for. Their addresses are counted on by two,
    from so many lines before the centre as half of them, and wrap at both ends of memory; each line
    shows the two bytes from its address on. A line is current exactly if it is a multiple of 2048
    lines away from the middle one. So a listing of at most 2048 lines comes to no address twice and
    has one current line; around a number that is no address it has none. -/
theorem window_around (m : Ram) (center : Int) {count : Int} (h : 1 ≤ count) :
    ∃ lines, window m center count = .ok lines ∧ lines.length = count.toNat ∧
      (∀ i < count.toNat, ∃ line, lines[i]? = some line ∧
        line.address = (center + 2 * ((i : Int) - count / 2)) % 4096 ∧ ShowsWord m line ∧
        (0 ≤ center → center < 4096 →
          (line.current = true ↔ (i : Int) % 2048 = count / 2 % 2048))) ∧
      (count ≤ 2048 → (lines.map (·.address)).Nodup ∧
        (0 ≤ center → center < 4096 → lines.countP (·.current) = 1)) ∧
      (center < 0 ∨ 4096 ≤ center → ∀ line ∈ lines, line.current = false) := by
  have hfdiv : count.fdiv 2 = count / 2 := Int.fdiv_eq_ediv_of_nonneg count (by decide)
  refine ⟨_, window_ram m center count, List.length_ofFn, fun i hi => ?_, fun hsize => ⟨?_, ?_⟩,
    fun hout line hline => ?_⟩
  -- An address of the memory is the centre modulo 4096, so that the earlier lemma applies.
  · refine ⟨windowLine m center count i, by rw [List.getElem?_ofFn, dif_pos hi],
      windowLine_address m center i, showsWord_windowLine m center count i, fun hpos hlt => ?_⟩
    obtain ⟨pc, rfl⟩ := Int.eq_ofNat_of_zero_le hpos
    have hcurrent := windowLine_current_iff m ⟨pc, by omega⟩ count i
    rw [hfdiv] at hcurrent
    exact hcurrent.trans (by omega)
  · rw [List.map_ofFn]
    exact nodup_addresses m center count (by omega)
  · intro hpos hlt
    obtain ⟨pc, rfl⟩ := Int.eq_ofNat_of_zero_le hpos
    obtain ⟨n, rfl⟩ := Int.eq_ofNat_of_zero_le (Int.le_trans (by decide) h)
    have hfilter := filter_current m ⟨pc, by omega⟩ (show 0 < n by omega) (by omega)
    rw [List.countP_eq_length_filter]
    exact congrArg List.length hfilter
  -- A centre outside memory is no line's address.
  · obtain ⟨i, rfl⟩ := List.mem_ofFn.1 hline
    exact windowLine_current_eq_false hout m count i

/-- Around the last address, which is odd, the listing goes on at address 1. The word of the last
    address has its second byte at the bottom of memory. -/
theorem window_around_top :
    let m := ((Memory.blank 4096).write 0xFFF 0x12).write 0 0x34
    ∃ lines line next, window m 0xFFF 4 = .ok lines ∧ lines[2]? = some line ∧
      lines[3]? = some next ∧ line.address = 0xFFF ∧ line.word.toNat = 0x1234 ∧
      line.current = true ∧ next.address = 1 ∧ lines.countP (·.current) = 1 := by
  intro m
  obtain ⟨lines, hlines, -, hline, hunique, -⟩ := window_around m 0xFFF (by decide : (1 : Int) ≤ 4)
  obtain ⟨line, hfound, haddress, ⟨high, low, hhigh, hlow, hword⟩, hcurrent⟩ := hline 2 (by decide)
  obtain ⟨next, hnext, hafter, -, -⟩ := hline 3 (by decide)
  obtain ⟨-, honce⟩ := hunique (by decide)
  have htop : m.cells.toList[4095]? = some 0x12 := by
    simpa [m] using m.getElem?_cells 0xFFF
  have hbottom : m.cells.toList[0]? = some 0x34 := by
    simpa [m] using m.getElem?_cells 0
  rw [haddress] at hhigh hlow
  obtain rfl : high = 0x12 := Option.some.inj (hhigh.symm.trans htop)
  obtain rfl : low = 0x34 := Option.some.inj (hlow.symm.trans hbottom)
  exact ⟨lines, line, next, hlines, hfound, hnext, haddress, hword,
    (hcurrent (by decide) (by decide)).2 (by decide), hafter, honce (by decide) (by decide)⟩

end Listing

end Chip8
