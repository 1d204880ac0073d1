import Chip8.Proofs.Sprites
import Mathlib.Algebra.BigOperators.Fin
import Mathlib.Data.Fintype.BigOperators

/-!
# Lit pixels under draws

Every set bit of a sprite changes one cell: either a pixel comes on or a pixel goes out. So a draw
adds one lit pixel for each set bit, less two for each time a pixel goes out, and it is exactly the
pixels that go out which it reports. On a small screen the same cell may go out several times in one
draw, so they are counted flip by flip, and not by comparing the screens at the ends.

The books of a series of draws and clears are kept by `Canvas.booked`, which looks at the strokes
and never counts the lit pixels of the canvas; the count of a canvas that was blank at first agrees
with them.

## Key results

- `Framebuffer.litCount_eq_card`: the count is the number of lit cells
- `Framebuffer.litCount_flipAll`, `Framebuffer.flipAll_hit_iff_wentOut`: the law for flips one after
  the other
- `Canvas.paint?_litCount`, `Canvas.paintAll?_litCount`: the books of a stroke and of a series
- `Canvas.litCount_conserved`: draws on any canvas, and series of draws and clears from a blank one
-/

namespace Chip8

-- Zero is the numeral here, and not that of an algebraic structure.
attribute [local instance (1100)] Zero.ofOfNat0

/-- A sprite has as many pixels as set bits. -/
private theorem Sprite.length_pixels (sprite : List UInt8) :
    (pixels sprite).length = (bits sprite).card := by
  rw [← toFinset_pixels]
  exact (List.toFinset_card_of_nodup (nodup_pixelsFrom 0 sprite)).symm

namespace Framebuffer

variable {width height : Nat}

/-! ## Lit cells -/

/-- The lit cells. -/
def litCells (fb : Framebuffer width height) : Finset (Fin width × Fin height) :=
  Finset.univ.filter fun cell => fb.get cell.1 cell.2 = true

/-- A lit cell is one whose pixel is on. -/
theorem mem_litCells {fb : Framebuffer width height} {x : Fin width} {y : Fin height} :
    (x, y) ∈ fb.litCells ↔ fb.get x y = true := by
  simp only [litCells, Finset.mem_filter, Finset.mem_univ, true_and]

/-- A row of cells, one by one. -/
private theorem toList_eq_ofFn {α : Type} {n : Nat} (xs : Vector α n) :
    xs.toList = List.ofFn xs.get := by
  rw [← Vector.toList_ofFn]
  exact congrArg Vector.toList Vector.ofFn_getElem.symm

/-- The pixels that are on in a row are as many as its lit columns. -/
private theorem count_row (row : Vector Bool width) :
    row.toList.count true = ∑ x : Fin width, if row.get x = true then 1 else 0 := by
  rw [toList_eq_ofFn, ← Multiset.coe_count, ← Fin.univ_val_map, Multiset.count_map,
    ← Finset.card_filter]
  simp only [eq_comm (a := true)]
  rfl

/-- The pixels that are on, row by row, are the lit cells. -/
theorem litCount_eq_card (fb : Framebuffer width height) : fb.litCount = fb.litCells.card := by
  rw [litCount, toList_eq_ofFn, List.map_ofFn]
  apply List.sum_ofFn.trans
  -- The count goes row by row, and so the sum over the cells is taken in that order.
  rw [litCells, Finset.card_filter, Fintype.sum_prod_type_right]
  exact Finset.sum_congr rfl fun y _ => count_row (fb.rows.get y)

/-- No more pixels are lit than there are cells. -/
private theorem litCount_le (fb : Framebuffer width height) : fb.litCount ≤ width * height := by
  rw [litCount_eq_card]
  apply (Finset.card_le_univ _).trans_eq
  rw [Fintype.card_prod, Fintype.card_fin, Fintype.card_fin]

/-- On a blank screen nothing is lit. -/
private theorem litCount_blank : (blank width height).litCount = 0 := by
  rw [litCount_eq_card, Finset.card_eq_zero, litCells, Finset.filter_eq_empty_iff]
  rintro ⟨x, y⟩ -
  simp only [get_blank, Bool.false_eq_true, not_false_eq_true]

/-! ## A flip -/

variable {fb : Framebuffer width height} {x : Fin width} {y : Fin height}

/-- Flipping a lit cell takes it out of the lit cells. -/
private theorem litCells_flip_of_lit (h : fb.get x y = true) :
    (fb.flip x y).litCells = fb.litCells.erase (x, y) := by
  ext ⟨p, q⟩
  rw [mem_litCells, get_flip, Finset.mem_erase, mem_litCells, ne_eq, Prod.mk.injEq]
  by_cases hcell : p = x ∧ q = y
  · simp [hcell, h]
  · simp [hcell]

/-- Flipping a cell that is not lit puts it among the lit cells. -/
private theorem litCells_flip_of_unlit (h : fb.get x y = false) :
    (fb.flip x y).litCells = insert (x, y) fb.litCells := by
  ext ⟨p, q⟩
  rw [mem_litCells, get_flip, Finset.mem_insert, mem_litCells, Prod.mk.injEq]
  by_cases hcell : p = x ∧ q = y
  · simp [hcell, h]
  · simp [hcell]

/-- How many cells are lit in one framebuffer and not in the next. -/
def wentOut (before after : Framebuffer width height) : Nat :=
  (before.litCells \ after.litCells).card

/-- The pixel of a lit cell goes out when the cell is flipped, and no other does. -/
private theorem wentOut_flip_of_lit (h : fb.get x y = true) : wentOut fb (fb.flip x y) = 1 := by
  rw [wentOut, litCells_flip_of_lit h, Finset.sdiff_erase_self (mem_litCells.2 h),
    Finset.card_singleton]

/-- No pixel goes out when a cell is flipped that was not lit. -/
private theorem wentOut_flip_of_unlit (h : fb.get x y = false) : wentOut fb (fb.flip x y) = 0 := by
  rw [wentOut, litCells_flip_of_unlit h, Finset.card_eq_zero, Finset.sdiff_eq_empty_iff_subset]
  exact Finset.subset_insert _ _

/-- A flip lights one pixel, or puts one out. -/
private theorem litCount_flip (fb : Framebuffer width height) (x : Fin width) (y : Fin height) :
    (fb.flip x y).litCount + 2 * wentOut fb (fb.flip x y) = fb.litCount + 1 := by
  rw [litCount_eq_card, litCount_eq_card]
  -- Either way the cell itself is all that changes among the lit cells.
  cases h : fb.get x y with
  | true =>
    have hmem := mem_litCells.2 h
    have hpos := Finset.card_pos.2 ⟨_, hmem⟩
    rw [wentOut_flip_of_lit h, litCells_flip_of_lit h, Finset.card_erase_of_mem hmem]
    omega
  | false =>
    have hmem : (x, y) ∉ fb.litCells := by
      rw [mem_litCells, h]
      exact Bool.false_ne_true
    rw [wentOut_flip_of_unlit h, litCells_flip_of_unlit h, Finset.card_insert_of_notMem hmem]

/-! ## Flips one after the other -/

/-- How often a pixel goes out while the cells of a list are flipped one after the other. -/
def wentOutAlong (fb : Framebuffer width height) : List (Fin width × Fin height) → Nat
  | [] => 0
  | cell :: rest =>
    wentOut fb (fb.flip cell.1 cell.2) + (fb.flip cell.1 cell.2).wentOutAlong rest

/-- The pixels that go out in the first flip and in those behind it. -/
private theorem wentOutAlong_cons (fb : Framebuffer width height) (x : Fin width) (y : Fin height)
    (rest : List (Fin width × Fin height)) :
    fb.wentOutAlong ((x, y) :: rest) =
      wentOut fb (fb.flip x y) + (fb.flip x y).wentOutAlong rest := rfl

/-- Every flip adds one to the lit pixels, less two if a pixel goes out. -/
theorem litCount_flipAll (fb : Framebuffer width height) (cells : List (Fin width × Fin height)) :
    (fb.flipAll cells).2.litCount + 2 * fb.wentOutAlong cells = fb.litCount + cells.length := by
  -- Induction on the cells, for every framebuffer: the next flip meets what the first one left.
  induction cells generalizing fb with
  | nil => rfl
  | cons cell rest ih =>
    obtain ⟨x, y⟩ := cell
    have hfirst := fb.litCount_flip x y
    have hrest := ih (fb.flip x y)
    rw [flipAll_cons, wentOutAlong_cons, List.length_cons]
    show ((fb.flip x y).flipAll rest).2.litCount + _ = _
    omega

/-- A lit cell is met if some pixel goes out. -/
theorem flipAll_hit_iff_wentOut (fb : Framebuffer width height)
    (cells : List (Fin width × Fin height)) :
    (fb.flipAll cells).1 = true ↔ 0 < fb.wentOutAlong cells := by
  -- Induction on the cells, as for the count; a hit and a pixel that goes out are the same flip.
  induction cells generalizing fb with
  | nil => simp [flipAll, wentOutAlong]
  | cons cell rest ih =>
    obtain ⟨x, y⟩ := cell
    rw [flipAll_cons, Bool.or_eq_true, ih, wentOutAlong_cons]
    cases h : fb.get x y with
    | true =>
      rw [wentOut_flip_of_lit h]
      simp only [true_or, true_iff]
      omega
    | false =>
      rw [wentOut_flip_of_unlit h, Nat.zero_add]
      simp only [Bool.false_eq_true, false_or]

end Framebuffer

/-! ## Canvases -/

/-- What changes a canvas. -/
inductive Stroke
  | draw (x y : Int) (sprite : List UInt8)
  | clear
deriving DecidableEq, Repr

namespace Canvas

/-- How often a pixel goes out during a draw; none does where there are no cells. -/
def wentOut (c : Canvas) (x y : Int) (sprite : List UInt8) : Nat :=
  if h : c.width.toNat ≠ 0 ∧ c.height.toNat ≠ 0 then
    have : NeZero c.width.toNat := ⟨h.1⟩
    have : NeZero c.height.toNat := ⟨h.2⟩
    c.pixels.wentOutAlong ((Sprite.pixels sprite).map (Framebuffer.place x y))
  else 0

/-- The canvas after a stroke. -/
def paint? (c : Canvas) : Stroke → Except CanvasError Canvas
  | .draw x y sprite => (c.draw? x y sprite).map (·.2)
  | .clear => .ok c.clear

/-- The balance after a stroke: a set bit brings a pixel, a pixel that goes out takes two, and a
    clear takes all. -/
def booked (c : Canvas) (balance : Int) : Stroke → Int
  | .draw x y sprite => balance + (Sprite.bits sprite).card - 2 * c.wentOut x y sprite
  | .clear => 0

/-- The canvas after a series of strokes, and the balance of its books. -/
def paintAll? (c : Canvas) (balance : Int) : List Stroke → Except CanvasError (Canvas × Int)
  | [] => .ok (c, balance)
  | stroke :: rest => do
    let next ← c.paint? stroke
    next.paintAll? (c.booked balance stroke) rest

/-- On a canvas with an extent the cells are those of its framebuffer. -/
private theorem wentOut_eq (c : Canvas) [NeZero c.width.toNat] [NeZero c.height.toNat] (x y : Int)
    (sprite : List UInt8) :
    c.wentOut x y sprite =
      c.pixels.wentOutAlong ((Sprite.pixels sprite).map (Framebuffer.place x y)) := by
  rw [wentOut, dif_pos ⟨NeZero.ne c.width.toNat, NeZero.ne c.height.toNat⟩]

variable (c : Canvas) (wide : 1 ≤ c.width) (high : 1 ≤ c.height)

include wide high

/-- A draw adds the set bits of its sprite, less two for every pixel that goes out, and reports
    whether one does. -/
private theorem draw?_litCount (x y : Int) (sprite : List UInt8) :
    ∃ hit pixels, c.draw? x y sprite = .ok (hit, { c with pixels }) ∧
      pixels.litCount + 2 * c.wentOut x y sprite =
        c.pixels.litCount + (Sprite.bits sprite).card ∧
      (hit = true ↔ 0 < c.wentOut x y sprite) := by
  -- With both extents positive, columns and rows can be numbered.
  have hwidth : NeZero c.width.toNat := ⟨by omega⟩
  have hheight : NeZero c.height.toNat := ⟨by omega⟩
  refine ⟨_, _, c.draw?_eq_ok x y sprite, ?_, ?_⟩
  · have hflips := c.pixels.litCount_flipAll ((Sprite.pixels sprite).map (Framebuffer.place x y))
    rw [List.length_map, Sprite.length_pixels] at hflips
    rw [wentOut_eq]
    exact hflips
  · rw [wentOut_eq]
    exact Framebuffer.flipAll_hit_iff_wentOut _ _

/-- A stroke keeps the books. -/
theorem paint?_litCount (stroke : Stroke) :
    ∃ pixels, c.paint? stroke = .ok { c with pixels } ∧
      c.booked c.pixels.litCount stroke = pixels.litCount := by
  -- A draw is booked flip by flip; a clear ends with a blank canvas, whatever the balance was.
  cases stroke with
  | draw x y sprite =>
    obtain ⟨hit, pixels, hdraw, hcount, -⟩ := c.draw?_litCount wide high x y sprite
    refine ⟨pixels, ?_, ?_⟩
    · rw [paint?, hdraw]
      rfl
    · rw [booked]
      omega
  | clear => exact ⟨_, rfl, by rw [booked, Framebuffer.litCount_blank]; rfl⟩

/-- A series of strokes keeps the books. -/
theorem paintAll?_litCount (strokes : List Stroke) :
    ∃ pixels, c.paintAll? c.pixels.litCount strokes = .ok ({ c with pixels }, pixels.litCount) := by
  -- Induction on the strokes: the balance after each is the count of the canvas it leaves.
  induction strokes generalizing c with
  | nil => exact ⟨c.pixels, rfl⟩
  | cons stroke rest ih =>
    obtain ⟨next, hpaint, hbooked⟩ := c.paint?_litCount wide high stroke
    obtain ⟨last, hrest⟩ := ih { c with pixels := next } wide high
    refine ⟨last, ?_⟩
    rw [paintAll?, hpaint, hbooked]
    exact hrest

omit wide high

/-- On a canvas with an extent in both directions, whatever its pixels, a draw changes the number of
    lit pixels by the set bits of the sprite less two for every time a pixel goes out. It reports
    whether one does, so it reports none exactly if every set bit adds a pixel. After any series of
    draws and clears from a blank canvas as many pixels are lit as the books of the series say, and
    never more than there are cells. -/
theorem litCount_conserved (width height : Int) (wide : 1 ≤ width) (high : 1 ≤ height) :
    (∀ pixels x y sprite,
      let c : Canvas := { width, height, pixels }
      ∃ hit after, c.draw? x y sprite = .ok (hit, { c with pixels := after }) ∧
        (after.litCount : Int) =
          pixels.litCount + (Sprite.bits sprite).card - 2 * c.wentOut x y sprite ∧
        (hit = true ↔ 0 < c.wentOut x y sprite) ∧
        (hit = false ↔ after.litCount = pixels.litCount + (Sprite.bits sprite).card)) ∧
    ∀ strokes, ∃ pixels,
      paintAll? { width, height, pixels := .blank _ _ } 0 strokes =
        .ok ({ width, height, pixels }, pixels.litCount) ∧
      0 ≤ pixels.litCount ∧ (pixels.litCount : Int) ≤ width * height := by
  constructor
  · intro pixels x y sprite c
    obtain ⟨hit, after, hdraw, hcount, hhit⟩ := c.draw?_litCount wide high x y sprite
    have hcount : after.litCount + 2 * c.wentOut x y sprite =
        pixels.litCount + (Sprite.bits sprite).card := hcount
    -- None is reported exactly if none went out, and then the two counts agree.
    refine ⟨hit, after, hdraw, by omega, hhit, ?_⟩
    rw [← Bool.not_eq_true, hhit]
    omega
  · intro strokes
    obtain ⟨pixels, hpaint⟩ :=
      paintAll?_litCount { width, height, pixels := .blank _ _ } wide high strokes
    rw [Framebuffer.litCount_blank] at hpaint
    refine ⟨pixels, hpaint, Nat.zero_le _, ?_⟩
    -- The bound is on natural numbers, and the extents are integers that are positive.
    have hle : (pixels.litCount : Int) ≤ (width.toNat * height.toNat : Nat) :=
      Int.ofNat_le.2 pixels.litCount_le
    rwa [Int.natCast_mul, Int.toNat_of_nonneg (by omega), Int.toNat_of_nonneg (by omega)] at hle

/-- On a narrow canvas two bits of one row fall on the same cell. The second bit puts out what the
    first one lit: two bits, one pixel that goes out, none lit in the end. -/
theorem litCount_conserved_narrow :
    let c : Canvas := { width := 3, height := 2, pixels := .blank 3 2 }
    ∃ hit after, c.draw? (-1) 3 [0x90] = .ok (hit, { c with pixels := after }) ∧
      (Sprite.bits [0x90]).card = 2 ∧ c.wentOut (-1) 3 [0x90] = 1 ∧
      hit = true ∧ after.litCount = 0 := by
  intro c
  obtain ⟨hit, after, hdraw, hcount, hhit, -⟩ :=
    (litCount_conserved 3 2 (by decide) (by decide)).1 (.blank 3 2) (-1) 3 [0x90]
  have hbits : (Sprite.bits [0x90]).card = 2 := by decide
  have hout : c.wentOut (-1) 3 [0x90] = 1 := by decide
  have hblank : (Framebuffer.blank 3 2).litCount = 0 := Framebuffer.litCount_blank
  refine ⟨hit, after, hdraw, hbits, hout, hhit.2 (hout ▸ Nat.one_pos), ?_⟩
  have hcount : (after.litCount : Int) = (Framebuffer.blank 3 2).litCount +
      (Sprite.bits [0x90]).card - 2 * c.wentOut (-1) 3 [0x90] := hcount
  rw [hblank, hbits, hout] at hcount
  omega

end Canvas

end Chip8
