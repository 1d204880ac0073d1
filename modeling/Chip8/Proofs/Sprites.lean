import Chip8.Screen.Canvas
import Mathlib.Data.Finset.Prod
import Mathlib.Data.Int.ModEq
import Mathlib.Data.List.FinRange
import Mathlib.Data.Finset.Dedup

/-!
# Sprites, cell by cell

A draw goes through the set bits of a sprite one after the other and flips the cell on which each
falls. On a small screen several bits may fall on one cell, and a later bit meets what an earlier
one has left there. Still the outcome depends only on how many bits fall on each cell: a cell is
flipped if their number is odd, and a lit pixel goes out if two bits meet in a cell, or if one falls
on a cell that was lit.

## Key results

- `Framebuffer.coverage`: how many bits fall on a cell
- `Framebuffer.get_flipAll`, `Framebuffer.flipAll_hit_iff`: flips one after the other
- `Framebuffer.get_draw`, `Framebuffer.draw_hit_iff`: a draw, in terms of the coverage
- `Framebuffer.draw_hit_iff_of_le`: a sprite that is no larger than the screen
- `Canvas.draw?_coverage`: a draw on a canvas of any size
-/

namespace Chip8

-- Zero is the numeral here, and not that of an algebraic structure.
attribute [local instance (1100)] Zero.ofOfNat0

/-! ## The set bits of a sprite -/

namespace Sprite

/-- Whether a sprite has a bit in a row and a column; the highest bit of a row is leftmost. -/
def lit (sprite : List UInt8) (row column : Nat) : Bool :=
  (sprite.getD row 0).toNat.testBit (7 - column)

/-- The places of the set bits of a sprite, as pairs of column and row. -/
def bits (sprite : List UInt8) : Finset (Nat × Nat) :=
  (Finset.range 8 ×ˢ Finset.range sprite.length).filter fun bit => lit sprite bit.2 bit.1

/-- The columns of a row are its set bits, the leftmost of them the highest. -/
private theorem mem_columns {byte : UInt8} {column : Nat} :
    column ∈ columns byte ↔ column < 8 ∧ byte.toNat.testBit (7 - column) = true := by
  rw [columns, List.mem_filter, List.mem_range]

/-- The rows of a sprite are numbered from `first` on. -/
private theorem mem_pixelsFrom {first : Nat} {sprite : List UInt8} {column row : Nat} :
    (column, row) ∈ pixelsFrom first sprite ↔
      ∃ r < sprite.length, row = first + r ∧ column < 8 ∧ lit sprite r column = true := by
  -- Induction on the rows; the first one is `first`, and the others are numbered from the next
  -- on.
  induction sprite generalizing first with
  | nil => simp only [pixelsFrom, List.not_mem_nil, List.length_nil, Nat.not_lt_zero, false_and,
      exists_false]
  | cons byte rest ih =>
    rw [pixelsFrom, List.mem_append, List.mem_map, ih]
    constructor
    · rintro (⟨c, hc, heq⟩ | ⟨r, hr, rfl, hbit⟩)
      · obtain ⟨rfl, rfl⟩ := Prod.mk.inj heq
        exact ⟨0, Nat.succ_pos _, rfl, mem_columns.1 hc⟩
      · exact ⟨r + 1, Nat.succ_lt_succ hr, by omega, hbit⟩
    · rintro ⟨r, hr, rfl, hbit⟩
      cases r with
      | zero => exact .inl ⟨column, mem_columns.2 hbit, rfl⟩
      | succ r => exact .inr ⟨r, Nat.lt_of_succ_lt_succ hr, by omega, hbit⟩

/-- No pixel of a sprite is listed twice. -/
theorem nodup_pixelsFrom (first : Nat) (sprite : List UInt8) :
    (pixelsFrom first sprite).Nodup := by
  induction sprite generalizing first with
  | nil => exact List.nodup_nil
  | cons byte rest ih =>
    have hrow : ((columns byte).map (·, first)).Nodup :=
      (List.nodup_range.filter _).map fun _ _ h => (Prod.mk.inj h).1
    refine hrow.append (ih (first + 1)) ?_
    rintro ⟨column, row⟩ hfirst hrest
    -- The other rows have higher numbers.
    obtain ⟨_, -, heq⟩ := List.mem_map.1 hfirst
    obtain ⟨r, -, hr, -⟩ := mem_pixelsFrom.1 hrest
    have := (Prod.mk.inj heq).2
    omega

/-- The pixels of a sprite are its set bits, each of them once. -/
theorem toFinset_pixels (sprite : List UInt8) : (pixels sprite).toFinset = bits sprite := by
  ext ⟨column, row⟩
  rw [List.mem_toFinset, pixels, mem_pixelsFrom, bits, Finset.mem_filter, Finset.mem_product,
    Finset.mem_range, Finset.mem_range]
  constructor
  · rintro ⟨r, hr, rfl, hcolumn, hlit⟩
    rw [Nat.zero_add]
    exact ⟨⟨hcolumn, hr⟩, hlit⟩
  · rintro ⟨⟨hcolumn, hr⟩, hlit⟩
    exact ⟨row, hr, (Nat.zero_add row).symm, hcolumn, hlit⟩

/-- What is counted over the pixels of a sprite is counted over its set bits. -/
private theorem countP_pixels (sprite : List UInt8) (p : Nat × Nat → Prop) [DecidablePred p] :
    (pixels sprite).countP p = ((bits sprite).filter p).card := by
  have hnodup : ((pixels sprite).filter p).Nodup := (nodup_pixelsFrom 0 sprite).filter _
  rw [List.countP_eq_length_filter, ← List.toFinset_card_of_nodup hnodup, List.toFinset_filter,
    toFinset_pixels]
  simp only [decide_eq_true_eq]

end Sprite

namespace Framebuffer

variable {width height : Nat}

/-! ## Cells under a sprite -/

/-- Where a place wraps to. -/
theorem wrap_eq_iff {size : Nat} [NeZero size] {value : Int} {i : Fin size} :
    wrap size value = i ↔ value % size = i.val := by
  have hpos : 0 < size := Nat.pos_of_neZero size
  have hnonneg := Int.emod_nonneg value (b := size) (by omega)
  rw [Fin.ext_iff]
  show (value % size).toNat = i.val ↔ _
  generalize value % size = r at *
  omega

/-- How many set bits of a sprite at `(x, y)` fall on a cell. -/
def coverage (x y : Int) (sprite : List UInt8) (p : Fin width) (q : Fin height) : Nat :=
  ((Sprite.bits sprite).filter fun bit =>
    (x + bit.1) % width = p.val ∧ (y + bit.2) % height = q.val).card

/-- The bits that fall on a cell, among those of a sprite that is drawn. -/
private theorem count_map_place [NeZero width] [NeZero height] (x y : Int) (sprite : List UInt8)
    (p : Fin width) (q : Fin height) :
    ((Sprite.pixels sprite).map (place x y)).count (p, q) = coverage x y sprite p q := by
  -- Counting a cell is counting the bits that are placed on it.
  rw [List.count_eq_countP, List.countP_map, coverage, ← Sprite.countP_pixels]
  refine List.countP_congr fun bit _ => ?_
  simp only [Function.comp_apply, place, beq_iff_eq, Prod.mk.injEq, wrap_eq_iff,
    decide_eq_true_eq]

/-- A cell is covered if some bit falls on it. -/
theorem coverage_pos_iff [NeZero width] [NeZero height] {x y : Int} {sprite : List UInt8}
    {p : Fin width} {q : Fin height} :
    0 < coverage x y sprite p q ↔
      ∃ row < sprite.length, ∃ column < 8, Sprite.lit sprite row column = true ∧
        wrap width (x + column) = p ∧ wrap height (y + row) = q := by
  simp only [coverage, Finset.card_pos, Finset.Nonempty, Finset.mem_filter, Sprite.bits,
    Finset.mem_product, Finset.mem_range, wrap_eq_iff]
  constructor
  · rintro ⟨⟨column, row⟩, ⟨⟨hcolumn, hrow⟩, hbit⟩, hplace⟩
    exact ⟨row, hrow, column, hcolumn, hbit, hplace⟩
  · rintro ⟨row, hrow, column, hcolumn, hbit, hplace⟩
    exact ⟨(column, row), ⟨⟨hcolumn, hrow⟩, hbit⟩, hplace⟩

/-- Distances below the size of an axis lead to different positions on it. -/
private theorem eq_of_add_emod_eq {z : Int} {a b size : Nat} (h : (z + a) % size = (z + b) % size)
    (ha : a < size) (hb : b < size) : a = b := by
  -- The common term cancels modulo the size, and both distances are below it.
  have hmod : (a : Int) % size = (b : Int) % size := Int.ModEq.add_left_cancel (.refl z) h
  rw [Int.emod_eq_of_lt (by omega) (by omega), Int.emod_eq_of_lt (by omega) (by omega)] at hmod
  exact Int.ofNat_inj.1 hmod

/-- A sprite that is not larger than the screen covers no cell twice. -/
theorem coverage_le_one {sprite : List UInt8} (hwidth : 8 ≤ width)
    (hheight : sprite.length ≤ height) (x y : Int) (p : Fin width) (q : Fin height) :
    coverage x y sprite p q ≤ 1 := by
  rw [coverage, Finset.card_le_one]
  rintro ⟨column, row⟩ h ⟨column', row'⟩ h'
  simp only [Finset.mem_filter, Sprite.bits, Finset.mem_product, Finset.mem_range] at h h'
  obtain ⟨⟨⟨hc, hr⟩, -⟩, hx, hy⟩ := h
  obtain ⟨⟨⟨hc', hr'⟩, -⟩, hx', hy'⟩ := h'
  -- Two bits on one cell are in the same column and in the same row.
  have hcolumns := eq_of_add_emod_eq (hx.trans hx'.symm) (by omega) (by omega)
  have hrows := eq_of_add_emod_eq (hy.trans hy'.symm) (by omega) (by omega)
  rw [hcolumns, hrows]

/-! ## Flips one after the other -/

/-- The first flip, and the flips behind it. -/
theorem flipAll_cons (fb : Framebuffer width height) (x : Fin width) (y : Fin height)
    (rest : List (Fin width × Fin height)) :
    fb.flipAll ((x, y) :: rest) =
      (fb.get x y || ((fb.flip x y).flipAll rest).1, ((fb.flip x y).flipAll rest).2) := by
  -- What was met before is only carried along.
  have carried : ∀ (cells : List (Fin width × Fin height)) (hit : Bool)
      (fb : Framebuffer width height),
      cells.foldl (fun state cell =>
          (state.1 || state.2.get cell.1 cell.2, state.2.flip cell.1 cell.2)) (hit, fb) =
        (hit || (fb.flipAll cells).1, (fb.flipAll cells).2) := by
    intro cells
    induction cells with
    | nil =>
      intro hit fb
      rw [List.foldl_nil, flipAll, List.foldl_nil, Bool.or_false]
    | cons cell rest ih =>
      intro hit fb
      simp only [flipAll, List.foldl_cons]
      rw [ih, ih (false || _), Bool.or_assoc, Bool.false_or]
  exact (carried rest (false || fb.get x y) (fb.flip x y)).trans (by rw [Bool.false_or])

/-- A cell is not counted where another one is listed. -/
private theorem count_cons_of_not {x p : Fin width} {y q : Fin height} (h : ¬(p = x ∧ q = y))
    (rest : List (Fin width × Fin height)) :
    ((x, y) :: rest).count (p, q) = rest.count (p, q) := by
  refine List.count_cons_of_ne fun heq => h ?_
  obtain ⟨rfl, rfl⟩ := Prod.mk.inj heq
  exact ⟨rfl, rfl⟩

/-- Flipping a cell leaves the others alone. -/
private theorem get_flip_of_not (fb : Framebuffer width height) {x p : Fin width} {y q : Fin height}
    (h : ¬(p = x ∧ q = y)) : (fb.flip x y).get p q = fb.get p q := by
  rw [get_flip, if_neg h]

/-- A cell is flipped as often as it is listed. -/
theorem get_flipAll (fb : Framebuffer width height) (cells : List (Fin width × Fin height))
    (p : Fin width) (q : Fin height) :
    (fb.flipAll cells).2.get p q = (fb.get p q ^^ decide (cells.count (p, q) % 2 = 1)) := by
  -- Induction on the cells; the pixel that the next flip meets is what the earlier ones left.
  induction cells generalizing fb with
  | nil => simp [flipAll]
  | cons cell rest ih =>
    obtain ⟨x, y⟩ := cell
    rw [flipAll_cons, ih]
    by_cases hcell : p = x ∧ q = y
    · obtain ⟨rfl, rfl⟩ := hcell
      have hparity : decide ((rest.count (p, q) + 1) % 2 = 1) =
          !decide (rest.count (p, q) % 2 = 1) := by
        rw [← decide_not, decide_eq_decide]
        omega
      rw [get_flip, if_pos ⟨rfl, rfl⟩, List.count_cons_self, hparity, Bool.xor_not, Bool.not_xor]
    · rw [get_flip_of_not fb hcell, count_cons_of_not hcell]

/-- A lit cell is met if one is listed that was lit, or if any is listed twice. -/
theorem flipAll_hit_iff (fb : Framebuffer width height) (cells : List (Fin width × Fin height)) :
    (fb.flipAll cells).1 = true ↔
      ∃ p q, 2 ≤ cells.count (p, q) ∨ cells.count (p, q) = 1 ∧ fb.get p q = true := by
  -- Induction on the cells: the first flip meets a lit cell, or one of the others does.
  induction cells generalizing fb with
  | nil => simp [flipAll]
  | cons cell rest ih =>
    obtain ⟨x, y⟩ := cell
    rw [flipAll_cons, Bool.or_eq_true, ih]
    constructor
    · rintro (hlit | ⟨p, q, h⟩)
      · refine ⟨x, y, ?_⟩
        rw [List.count_cons_self]
        by_cases hlast : rest.count (x, y) = 0
        · exact .inr ⟨by omega, hlit⟩
        · exact .inl (by omega)
      · refine ⟨p, q, ?_⟩
        -- A hit behind the first flip is one on its cell, now flipped, or on another cell.
        by_cases hcell : p = x ∧ q = y
        · obtain ⟨rfl, rfl⟩ := hcell
          rw [List.count_cons_self]
          exact .inl (by omega)
        · rwa [count_cons_of_not hcell, ← get_flip_of_not fb hcell]
    · rintro ⟨p, q, h⟩
      by_cases hcell : p = x ∧ q = y
      · obtain ⟨rfl, rfl⟩ := hcell
        rw [List.count_cons_self] at h
        cases hlit : fb.get p q with
        | true => exact .inl rfl
        | false =>
          -- The first flip turns the cell on, so that one more is enough.
          refine .inr ⟨p, q, ?_⟩
          rw [get_flip, if_pos ⟨rfl, rfl⟩, hlit]
          rw [hlit] at h
          simp only [Bool.false_eq_true, and_false, or_false] at h
          simp only [Bool.not_false, and_true]
          omega
      · rw [count_cons_of_not hcell] at h
        exact .inr ⟨p, q, by rwa [get_flip_of_not fb hcell]⟩

/-! ## A draw -/

variable [NeZero width] [NeZero height]

/-- A draw flips the cells that an odd number of bits falls on. -/
theorem get_draw (fb : Framebuffer width height) (x y : Int) (sprite : List UInt8) (p : Fin width)
    (q : Fin height) :
    (fb.draw x y sprite).2.get p q =
      (fb.get p q ^^ decide (coverage x y sprite p q % 2 = 1)) := by
  rw [draw, get_flipAll, count_map_place]

/-- A lit pixel goes out if two bits fall on a cell, or if one falls on a cell that was lit. -/
theorem draw_hit_iff (fb : Framebuffer width height) (x y : Int) (sprite : List UInt8) :
    (fb.draw x y sprite).1 = true ↔
      ∃ p q, 2 ≤ coverage x y sprite p q ∨ coverage x y sprite p q = 1 ∧ fb.get p q = true := by
  simp only [draw, flipAll_hit_iff, count_map_place]

/-- A sprite no larger than the screen puts a pixel out where it covers a lit cell. -/
theorem draw_hit_iff_covers (fb : Framebuffer width height) {sprite : List UInt8}
    (hwidth : 8 ≤ width) (hheight : sprite.length ≤ height) {x y : Int} :
    (fb.draw x y sprite).1 = true ↔
      ∃ p q, 0 < coverage x y sprite p q ∧ fb.get p q = true := by
  rw [draw_hit_iff]
  apply exists_congr
  intro p
  apply exists_congr
  intro q
  -- No cell is covered twice, so that the first of the two ways is ruled out.
  have hone := coverage_le_one hwidth hheight x y p q
  constructor
  · rintro (htwo | ⟨hcount, hlit⟩)
    · omega
    · exact ⟨by omega, hlit⟩
  · rintro ⟨hpos, hlit⟩
    exact .inr ⟨by omega, hlit⟩

/-- A sprite no larger than the screen puts a pixel out where one of its bits falls on a lit
    cell. -/
theorem draw_hit_iff_of_le (fb : Framebuffer width height) {sprite : List UInt8}
    (hwidth : 8 ≤ width) (hheight : sprite.length ≤ height) {x y : Int} :
    (fb.draw x y sprite).1 = true ↔
      ∃ row < sprite.length, ∃ column < 8, Sprite.lit sprite row column = true ∧
        fb.get (wrap width (x + column)) (wrap height (y + row)) = true := by
  rw [fb.draw_hit_iff_covers hwidth hheight]
  constructor
  · rintro ⟨p, q, hcovered, hlit⟩
    obtain ⟨row, hrow, column, hcolumn, hbit, rfl, rfl⟩ := coverage_pos_iff.1 hcovered
    exact ⟨row, hrow, column, hcolumn, hbit, hlit⟩
  · rintro ⟨row, hrow, column, hcolumn, hbit, hlit⟩
    exact ⟨_, _, coverage_pos_iff.2 ⟨row, hrow, column, hcolumn, hbit, rfl, rfl⟩, hlit⟩

end Framebuffer

namespace Canvas

/-- A canvas with an extent in both directions refuses no sprite. Each of its cells is flipped if an
    odd number of the sprite's bits falls on it, and a lit pixel goes out if two bits fall on one
    cell, or one bit falls on a cell that was lit. A sprite no larger than the canvas puts a pixel
    out only where one of its bits falls on a lit cell. -/
theorem draw?_coverage (c : Canvas) (wide : 1 ≤ c.width) (high : 1 ≤ c.height) (x y : Int)
    (sprite : List UInt8) :
    ∃ hit pixels, c.draw? x y sprite = .ok (hit, { c with pixels }) ∧
      (∀ p q, pixels.get p q =
        (c.pixels.get p q ^^ decide (Framebuffer.coverage x y sprite p q % 2 = 1))) ∧
      (hit = true ↔ ∃ p q, 2 ≤ Framebuffer.coverage x y sprite p q ∨
        Framebuffer.coverage x y sprite p q = 1 ∧ c.pixels.get p q = true) ∧
      (8 ≤ c.width → sprite.length ≤ c.height →
        (hit = true ↔ ∃ row < sprite.length, ∃ column < 8, Sprite.lit sprite row column = true ∧
          c.pixel? (x + column) (y + row) = .ok true)) := by
  -- With both extents positive the canvas has a framebuffer of that shape.
  have hwidth : NeZero c.width.toNat := ⟨by omega⟩
  have hheight : NeZero c.height.toNat := ⟨by omega⟩
  refine ⟨_, _, c.draw?_eq_ok x y sprite, c.pixels.get_draw x y sprite,
    c.pixels.draw_hit_iff x y sprite, fun hcolumns hrows => ?_⟩
  rw [c.pixels.draw_hit_iff_of_le (by omega) (by omega)]
  simp only [pixel?_eq_ok, Except.ok.injEq]

/-- On a narrow canvas two bits of one row fall on the same cell: it ends as it was, and the pixel
    that went out is the one that the sprite itself had lit. -/
theorem draw?_coverage_narrow :
    let c : Canvas := { width := 3, height := 2, pixels := .blank 3 2 }
    let p : Fin c.width.toNat := ⟨2, by decide⟩
    let q : Fin c.height.toNat := ⟨1, by decide⟩
    ∃ hit pixels, c.draw? (-1) 3 [0x90] = .ok (hit, { c with pixels }) ∧
      Framebuffer.coverage (-1) 3 [0x90] p q = 2 ∧ hit = true ∧ pixels.get p q = false := by
  intro c p q
  obtain ⟨hit, pixels, hdraw, hcells, hhit, -⟩ :=
    draw?_coverage c (by decide) (by decide) (-1) 3 [0x90]
  have hcount : Framebuffer.coverage (-1) 3 [0x90] p q = 2 := by decide
  refine ⟨hit, pixels, hdraw, hcount, hhit.2 ⟨p, q, .inl (Nat.le_of_eq hcount.symm)⟩, ?_⟩
  rw [hcells, hcount]
  decide

end Canvas

end Chip8
