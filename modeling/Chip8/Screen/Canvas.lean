import Chip8.HostNumber
import Chip8.Screen.Framebuffer

/-!
# Canvas

A framebuffer whose geometry a host chose at run time. An axis of size zero has no positions to
wrap around to, and a negative height leaves no rows: then a request that needs a cell is
refused. Requests that need none still succeed.
-/

namespace Chip8

-- Zero is the numeral here, and not that of an algebraic structure.
attribute [local instance (1100)] Zero.ofOfNat0

/-- Why a request to a canvas was refused. -/
inductive CanvasError
  -- The axis of the wanted cell has size zero.
  | emptyAxis
  | noRows
  -- There are no rows, and the number of the wanted one is no position at all.
  | noPosition
  | negativeWidth
  -- The wanted width is no size at all.
  | noSize
  -- There is no storage for a row of the wanted width.
  | noStorage
deriving DecidableEq, Repr

/-- The wording of a refusal. -/
def CanvasError.message : CanvasError → String
  | .emptyAxis => "integer modulo by zero"
  | .noRows => "list index out of range"
  | .noPosition => HostNumber.misfit
  | .negativeWidth => "negative count"
  | .noSize => HostNumber.misfit
  | .noStorage => ""

/-- A framebuffer with the geometry that was asked for. -/
structure Canvas where
  width : Int
  height : Int
  -- The pixels; a negative size counts as zero.
  pixels : Framebuffer width.toNat height.toNat
deriving Repr

namespace Canvas

/-- Why rows of a width cannot be made. -/
def widthError? (width : Int) : Option CanvasError :=
  if !HostNumber.fits width then some .noSize
  else if width < 0 then some .negativeWidth
  else if HostNumber.storageLimit ≤ width then some .noStorage
  else none

/-- A blank canvas. The width counts only if there are rows. -/
def blank? (width height : Int) : Except CanvasError Canvas :=
  match widthError? width, decide (0 < height) with
  | some error, true => .error error
  | _, _ => .ok { width, height, pixels := .blank _ _ }

/-- Turns every pixel off. -/
def clear (c : Canvas) : Canvas :=
  { c with pixels := .blank _ _ }

/-- Why no cell of a row can be reached on a canvas without rows. A negative height leaves the row
a number between the height and zero. -/
def rowError (c : Canvas) (y : Int) : CanvasError :=
  if c.height = 0 then .emptyAxis
  else if HostNumber.fits (y.fmod c.height) then .noRows
  else .noPosition

/-- The pixel at a place, which wraps. The height is judged before the width. -/
def pixel? (c : Canvas) (x y : Int) : Except CanvasError Bool :=
  if hy : c.height.toNat = 0 then .error (c.rowError y)
  else if hx : c.width.toNat = 0 then .error .emptyAxis
  else
    have : NeZero c.width.toNat := ⟨hx⟩
    have : NeZero c.height.toNat := ⟨hy⟩
    .ok (c.pixels.get (wrap _ x) (wrap _ y))

/-- Draws a sprite and says whether a lit pixel went out. Every row of the sprite needs a row of
the canvas, and every lit pixel a cell. -/
def draw? (c : Canvas) (x y : Int) (sprite : List UInt8) : Except CanvasError (Bool × Canvas) :=
  if sprite.isEmpty then .ok (false, c)
  else if hy : c.height.toNat = 0 then .error (c.rowError y)
  else if hx : c.width.toNat = 0 then
    if (Sprite.pixels sprite).isEmpty then .ok (false, c) else .error .emptyAxis
  else
    have : NeZero c.width.toNat := ⟨hx⟩
    have : NeZero c.height.toNat := ⟨hy⟩
    let (hit, pixels) := c.pixels.draw x y sprite
    .ok (hit, { c with pixels })

/-- A canvas with cells has the pixel of every place. -/
theorem pixel?_eq_ok (c : Canvas) [NeZero c.width.toNat] [NeZero c.height.toNat] (x y : Int) :
    c.pixel? x y = .ok (c.pixels.get (wrap _ x) (wrap _ y)) := by
  rw [pixel?, dif_neg (NeZero.ne c.height.toNat), dif_neg (NeZero.ne c.width.toNat)]

/-- A canvas with cells refuses no sprite. -/
theorem draw?_eq_ok (c : Canvas) [NeZero c.width.toNat] [NeZero c.height.toNat] (x y : Int)
    (sprite : List UInt8) :
    c.draw? x y sprite =
      .ok ((c.pixels.draw x y sprite).1, { c with pixels := (c.pixels.draw x y sprite).2 }) := by
  rw [draw?, dif_neg (NeZero.ne c.height.toNat), dif_neg (NeZero.ne c.width.toNat)]
  split
  · rename_i h
    rw [List.isEmpty_iff.1 h]
    rfl
  · rfl

end Canvas

end Chip8
