import Chip8.Number.Shortest
import Chip8.Text.Quoted

/-!
# Pictures of a pixel grid

A grid is a list of rows. Two encodings: one character for each pixel, and half blocks, where a
character shows a pixel of one row above a pixel of the next. An odd last row stands above a
blank one.

Hosts may hand over pixels that are neither on nor off; the half blocks have no picture for
them.
-/

namespace Chip8.Picture

/-- Takes rows in pairs, and pairs their pixels as far as both rows reach; an odd last row is
paired with blanks. -/
def pairRows {α : Type} (blank : α) : List (List α) → List (List (α × α))
  | [] => []
  | [top] => [top.map fun pixel => (pixel, blank)]
  | top :: bottom :: rest => top.zip bottom :: pairRows blank rest

/-- The character for a pixel above another. -/
def halfBlock : Bool × Bool → Char
  | (false, false) => ' '
  | (true, false) => '▀'
  | (false, true) => '▄'
  | (true, true) => '█'

/-- The lines of a picture as one text. -/
def joinLines (lines : List (List Char)) : String :=
  String.intercalate "\n" (lines.map String.ofList)

/-- A grid in half blocks. -/
def halfBlocks (rows : List (List Bool)) : String :=
  joinLines ((pairRows false rows).map (·.map halfBlock))

/-- A grid with a text for each pixel. -/
def withMarks (on off : String) (rows : List (List Bool)) : String :=
  String.intercalate "\n"
    (rows.map fun row => String.join (row.map fun pixel => if pixel then on else off))

/-- A grid with `#` for lit pixels and `.` for others. -/
def characters (rows : List (List Bool)) : String :=
  withMarks "#" "." rows

/-- A pixel as a host may give it. -/
inductive Pixel
  -- A number, of which one is on and zero is off.
  | number (value : Int)
  -- A binary64 number, of which likewise one is on and a zero is off.
  | real (value : Binary64)
  | flag (on : Bool)
  -- A text, which is neither on nor off.
  | text (text : String)
  -- Nothing, which is neither on nor off.
  | missing
  -- A list, for which no glyph can be looked up.
  | list
  -- A record, for which no glyph can be looked up.
  | record
deriving DecidableEq, Repr

namespace Pixel

/-- Whether a pixel is on, if it is on or off. -/
def state? : Pixel → Option Bool
  | number value => if value = 0 then some false else if value = 1 then some true else none
  | real value =>
    if value.isZero then some false
    else if value = .finite false Binary64.one then some true
    else none
  | flag on => some on
  | text _ | missing | list | record => none

/-- How a pixel is written in an error. -/
def name : Pixel → String
  | number value => toString value
  | real value => value.shortest
  | flag on => if on then "True" else "False"
  | text content => Text.quoted content
  | missing => "None"
  | list => "list"
  | record => "dict"

/-- Whether a pixel is made of further values. -/
def composite : Pixel → Bool
  | list | record => true
  | _ => false

end Pixel

/-- Why two pixels have no glyph. -/
inductive GlyphError
  -- One of them is neither on nor off.
  | noGlyph (top bottom : Pixel)
  -- One of them is made of further values, and no glyph can be looked up for such a pixel.
  | composite (pixel : Pixel)
deriving DecidableEq, Repr

/-- The wording of the refusal. -/
def GlyphError.message : GlyphError → String
  | noGlyph top bottom => "(" ++ top.name ++ ", " ++ bottom.name ++ ")"
  | composite pixel => "unhashable type: '" ++ pixel.name ++ "'"

/-- The character for two pixels of a host. -/
def halfBlock? : Pixel × Pixel → Except GlyphError Char
  | (top, bottom) =>
    match top.state?, bottom.state? with
    | some t, some b => .ok (halfBlock (t, b))
    | _, _ =>
      match [top, bottom].find? Pixel.composite with
      | some pixel => .error (.composite pixel)
      | none => .error (.noGlyph top bottom)

/-- A host's grid in half blocks. -/
def halfBlocks? (rows : List (List Pixel)) : Except GlyphError String := do
  let lines ← (pairRows (.number 0) rows).mapM (·.mapM halfBlock?)
  return joinLines lines

end Chip8.Picture
