/-!
# Framebuffer

A grid of pixels on which sprites are drawn by exclusive or. A sprite is a list of bytes, one
row of eight columns each, the highest bit leftmost. Its pixels wrap around all edges, so on a
small screen two of them may meet in one cell. A draw reports whether it turned a lit pixel off.

`draw` is a fold over the lit columns of the sprite: `Sprite.pixels` lists them and
`Framebuffer.place` says where each falls.
-/

namespace Chip8

-- Zero is the numeral here, and not that of an algebraic structure.
attribute [local instance (1100)] Zero.ofOfNat0

/-- The lit columns of a sprite row, from the left. -/
def Sprite.columns (byte : UInt8) : List Nat :=
  (List.range 8).filter fun column => byte.toNat.testBit (7 - column)

/-- The lit pixels of a sprite as pairs of column and row, row by row from the left, where the
first row has number `row`. -/
def Sprite.pixelsFrom (row : Nat) : List UInt8 → List (Nat × Nat)
  | [] => []
  | byte :: rest => (columns byte).map (·, row) ++ pixelsFrom (row + 1) rest

/-- The lit pixels of a sprite as pairs of column and row. -/
def Sprite.pixels (sprite : List UInt8) : List (Nat × Nat) :=
  pixelsFrom 0 sprite

/-- The position congruent to an integer on an axis of a given size. -/
def wrap (size : Nat) [NeZero size] (value : Int) : Fin size :=
  ⟨(value % size).toNat, by
    have : 0 < size := Nat.pos_of_neZero size
    have := Int.emod_nonneg value (b := size) (by omega)
    have := Int.emod_lt_of_pos value (b := size) (by omega)
    omega⟩

/-- Replaces the element at a place by its image. The element is taken out first, so that it can be
changed where it is stored. -/
def adjust {α : Type} {n : Nat} (xs : Vector α n) (place : Fin n) (f : α → α) : Vector α n :=
  ⟨xs.toArray.modify place f, by simp⟩

@[simp] theorem getElem_adjust {α : Type} {n : Nat} (xs : Vector α n) (place : Fin n) (f : α → α)
    (i : Nat) (h : i < n) :
    (adjust xs place f)[i] = if place.val = i then f xs[i] else xs[i] := by
  simp [adjust, Array.getElem_modify]

/-- A grid of pixels, row by row. -/
structure Framebuffer (width height : Nat) where
  -- The rows, the top one first.
  rows : Vector (Vector Bool width) height
deriving DecidableEq, Repr

namespace Framebuffer

variable {width height : Nat}

/-- All pixels off. Without rows the width costs no storage, however large it is. -/
def blank (width : Nat) : (height : Nat) → Framebuffer width height
  | 0 => ⟨#v[]⟩
  | height + 1 => ⟨Vector.replicate (height + 1) (Vector.replicate width false)⟩

/-- The pixel of a column and a row. -/
def get (fb : Framebuffer width height) (x : Fin width) (y : Fin height) : Bool :=
  fb.rows[y][x]

/-- Changes one pixel. -/
def flip (fb : Framebuffer width height) (x : Fin width) (y : Fin height) :
    Framebuffer width height :=
  ⟨adjust fb.rows y fun row => adjust row x (!·)⟩

/-- The cell on which a pixel of a sprite at `(x, y)` falls. -/
def place [NeZero width] [NeZero height] (x y : Int) (pixel : Nat × Nat) :
    Fin width × Fin height :=
  (wrap width (x + pixel.1), wrap height (y + pixel.2))

/-- Changes the cells of a list one after the other, and says whether a lit one was met. -/
def flipAll (fb : Framebuffer width height) (cells : List (Fin width × Fin height)) :
    Bool × Framebuffer width height :=
  cells.foldl (fun (hit, fb) (x, y) => (hit || fb.get x y, fb.flip x y)) (false, fb)

/-- Draws a sprite with its top left corner at `(x, y)`, and says whether a lit pixel went
out. -/
def draw [NeZero width] [NeZero height] (fb : Framebuffer width height) (x y : Int)
    (sprite : List UInt8) : Bool × Framebuffer width height :=
  fb.flipAll ((Sprite.pixels sprite).map (place x y))

/-- The rows as lists of pixels. -/
def toLists (fb : Framebuffer width height) : List (List Bool) :=
  fb.rows.toList.map (·.toList)

/-- How many pixels are on. -/
def litCount (fb : Framebuffer width height) : Nat :=
  (fb.rows.toList.map fun row => row.toList.count true).sum

@[simp] theorem get_flip (fb : Framebuffer width height) (x p : Fin width) (y q : Fin height) :
    (fb.flip x y).get p q = if p = x ∧ q = y then !fb.get x y else fb.get p q := by
  simp only [get, flip, Fin.getElem_fin, getElem_adjust, Fin.ext_iff]
  by_cases hy : y.val = q.val <;> by_cases hx : x.val = p.val <;>
    simp [hx, hy, eq_comm]

@[simp] theorem get_blank (x : Fin width) (y : Fin height) :
    (blank width height).get x y = false := by
  cases height with
  | zero => exact y.elim0
  | succ height => simp [get, blank]

end Framebuffer

/-- The screen of the machine. -/
abbrev Screen := Framebuffer 64 32

end Chip8
