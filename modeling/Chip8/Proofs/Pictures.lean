import Chip8.Panel.Picture
import Chip8.Proofs.Lines
import Chip8.Proofs.Shares

/-!
# Two pictures of one grid

A grid is shown with one mark for each pixel, or in half blocks, each of which shows two pixels. A
half block is lit above and below as the two marks are that it stands for; below an odd last row
nothing is lit. So both pictures show the same grid, and it can be read back from each of them,
from half blocks if it is known how many rows there are.

## Key results

- `Picture.cell_pairRows`, `Picture.take_unpairRows`: rows in pairs, cell by cell and taken apart
- `Picture.halfBlocks?_ofBool`: a grid of ones and zeros has a picture in half blocks
- `Picture.lines_halfBlocks`, `Picture.lines_characters`: the lines of both pictures
- `Picture.halfBlocks_agree_characters`: what the pictures show
-/

namespace Chip8.Picture

variable {α β : Type} {width : Nat}

/-! ## Grids -/

/-- At least one row, and all rows of the same width. -/
structure Grid (width : Nat) (rows : List (List Bool)) : Prop where
  nonempty : rows ≠ []
  rectangular : ∀ row ∈ rows, row.length = width

/-- What stands in a column of a row, if there is such a place. -/
def cell (rows : List (List α)) (row column : Nat) : Option α :=
  rows[row]?.bind (·[column]?)

/-- Within its shape a grid has a pixel everywhere. -/
private theorem Grid.exists_cell_eq_some {rows : List (List Bool)} (h : Grid width rows)
    {row column : Nat} (hrow : row < rows.length) (hcolumn : column < width) :
    ∃ pixel, cell rows row column = some pixel := by
  have hlength : column < (rows.get ⟨row, hrow⟩).length := by
    rwa [h.rectangular _ (List.get_mem ..)]
  exact ⟨_, by rw [cell, List.getElem?_eq_getElem hrow]; exact List.getElem?_eq_getElem hlength⟩

/-- A mapped grid has the images of the pixels at their places. -/
private theorem cell_map (f : α → β) (rows : List (List α)) (row column : Nat) :
    cell (rows.map (·.map f)) row column = (cell rows row column).map f := by
  simp only [cell, List.getElem?_map]
  cases rows[row]? with
  | none => rfl
  | some line => exact List.getElem?_map

/-! ## Rows in pairs -/

/-- Pairing does not look at what stands in the rows. -/
private theorem pairRows_map (f : α → β) (blank : α) (rows : List (List α)) :
    pairRows (f blank) (rows.map (·.map f)) = (pairRows blank rows).map (·.map (Prod.map f f)) := by
  -- The recursion takes two rows off at a time, and the induction follows it.
  induction rows using pairRows.induct with
  | case1 => rfl
  | case2 top =>
    simp only [List.map_cons, List.map_nil, pairRows, List.map_map]
    rfl
  | case3 top bottom rest ih =>
    simp only [List.map_cons, pairRows, List.zip_map, ih]

/-- There are half as many lines of pairs as rows, rounded up. -/
private theorem length_pairRows (blank : α) (rows : List (List α)) :
    (pairRows blank rows).length = (rows.length + 1) / 2 := by
  induction rows using pairRows.induct with
  | case1 => simp only [pairRows, List.length_nil, Nat.reduceAdd, Nat.reduceDiv]
  | case2 top => simp only [pairRows, List.length_singleton, Nat.reduceAdd, Nat.reduceDiv]
  | case3 top bottom rest ih =>
    simp only [pairRows, List.length_cons, ih]
    omega

/-- Lines of pairs are as wide as the rows. -/
private theorem length_of_mem_pairRows {blank : α} {rows : List (List α)}
    (h : ∀ row ∈ rows, row.length = width) : ∀ line ∈ pairRows blank rows, line.length = width := by
  induction rows using pairRows.induct with
  | case1 => exact fun line hline => absurd hline List.not_mem_nil
  | case2 top =>
    intro line hline
    obtain rfl := List.mem_singleton.1 hline
    rw [List.length_map]
    exact h top List.mem_cons_self
  | case3 top bottom rest ih =>
    simp only [List.forall_mem_cons] at h
    obtain ⟨htop, hbottom, hrest⟩ := h
    refine List.forall_mem_cons.2 ⟨?_, ih hrest⟩
    rw [List.length_zip, htop, hbottom, Nat.min_self]

/-- A pair stands where its first pixel does in every other row. The second one stands below that,
    and where there is no row below it is blank. -/
theorem cell_pairRows {blank : α} {rows : List (List α)}
    (h : ∀ row ∈ rows, row.length = width) (row column : Nat) :
    cell (pairRows blank rows) row column =
      (cell rows (2 * row) column).map
        fun top => (top, (cell rows (2 * row + 1) column).getD blank) := by
  induction rows using pairRows.induct generalizing row with
  | case1 => rfl
  | case2 top =>
    -- Below the last row there is nothing, so that only its own line has pairs.
    cases row with
    | zero => exact List.getElem?_map
    | succ row => rfl
  | case3 top bottom rest ih =>
    simp only [List.forall_mem_cons] at h
    obtain ⟨htop, hbottom, hrest⟩ := h
    cases row with
    | zero =>
      -- The first line pairs the first two rows, column by column.
      change (top.zip bottom)[column]? =
        top[column]?.map fun first => (first, bottom[column]?.getD blank)
      by_cases hcolumn : column < width
      · have hfirst : column < top.length := by omega
        have hsecond : column < bottom.length := by omega
        rw [List.getElem?_eq_getElem hfirst, List.getElem?_eq_getElem hsecond]
        exact List.getElem?_zip_eq_some.2
          ⟨List.getElem?_eq_getElem hfirst, List.getElem?_eq_getElem hsecond⟩
      -- Beyond the width both rows have nothing, and so has the line.
      · rw [List.getElem?_eq_none (by omega : top.length ≤ column)]
        exact List.getElem?_eq_none (by rw [List.length_zip]; omega)
    | succ row => exact ih hrest row

/-- Takes lines of pairs apart into rows again. -/
def unpairRows (lines : List (List (α × α))) : List (List α) :=
  lines.flatMap fun line => [line.map Prod.fst, line.map Prod.snd]

/-- The rows come back; what an odd last one stood above is left out. -/
theorem take_unpairRows {blank : α} {rows : List (List α)}
    (h : ∀ row ∈ rows, row.length = width) :
    (unpairRows (pairRows blank rows)).take rows.length = rows := by
  induction rows using pairRows.induct with
  | case1 => rfl
  | case2 top =>
    -- The blank halves are those that `take` leaves out.
    have htop : (top.map fun pixel => (pixel, blank)).map Prod.fst = top := by
      rw [List.map_map]
      exact List.map_id top
    simp only [pairRows, unpairRows, List.flatMap_cons, List.cons_append, htop, List.length_cons,
      List.length_nil, List.take_succ_cons, List.take_zero]
  | case3 top bottom rest ih =>
    simp only [List.forall_mem_cons] at h
    obtain ⟨htop, hbottom, hrest⟩ := h
    have hfirst : (top.zip bottom).map Prod.fst = top :=
      List.map_fst_zip (Nat.le_of_eq (htop.trans hbottom.symm))
    have hsecond : (top.zip bottom).map Prod.snd = bottom :=
      List.map_snd_zip (Nat.le_of_eq (hbottom.trans htop.symm))
    have hlines := ih hrest
    simp only [unpairRows] at hlines
    simp only [pairRows, unpairRows, List.flatMap_cons, List.cons_append, List.nil_append, hfirst,
      hsecond, List.length_cons, List.take_succ_cons, hlines]

/-! ## Half blocks -/

/-- A pixel as one or zero. -/
def Pixel.ofBool (on : Bool) : Pixel :=
  .number (if on then 1 else 0)

/-- Ones and zeros have their glyphs. -/
private theorem halfBlock?_ofBool (pair : Bool × Bool) :
    halfBlock? (Prod.map Pixel.ofBool Pixel.ofBool pair) = .ok (halfBlock pair) := by
  obtain ⟨top, bottom⟩ := pair
  -- Four pairs of pixels, and a glyph for each.
  cases top <;> cases bottom <;> rfl

/-- A grid of ones and zeros has a glyph for every pair of pixels. -/
theorem halfBlocks?_ofBool (rows : List (List Bool)) :
    halfBlocks? (rows.map (·.map Pixel.ofBool)) = .ok (halfBlocks rows) := by
  have hline (line : List (Bool × Bool)) :
      (line.map (Prod.map Pixel.ofBool Pixel.ofBool)).mapM halfBlock? =
        .ok (line.map halfBlock) :=
    mapM_map_eq_ok halfBlock?_ofBool line
  have hpairs := pairRows_map Pixel.ofBool false rows
  rw [halfBlocks?, show Pixel.number 0 = Pixel.ofBool false from rfl, hpairs,
    mapM_map_eq_ok hline]
  rfl

/-- Whether the upper half of a glyph is lit. -/
def upperLit (glyph : Char) : Bool :=
  glyph = '▀' || glyph = '█'

/-- Whether the lower half of a glyph is lit. -/
def lowerLit (glyph : Char) : Bool :=
  glyph = '▄' || glyph = '█'

/-- A glyph tells the two pixels that it stands for. -/
private theorem halves_halfBlock (pair : Bool × Bool) :
    (upperLit (halfBlock pair), lowerLit (halfBlock pair)) = pair := by
  obtain ⟨top, bottom⟩ := pair
  cases top <;> cases bottom <;> rfl

/-! ## Marks -/

/-- The mark of a pixel. -/
def mark (pixel : Bool) : Char :=
  if pixel then '#' else '.'

/-- The mark of a lit pixel stands where there is one that is lit. -/
private theorem map_mark_eq_some_iff (pixel : Option Bool) :
    pixel.map mark = some '#' ↔ pixel.getD false = true := by
  obtain _ | _ | _ := pixel <;> decide

/-- A row of marks of one character each. -/
private theorem join_marks (row : List Bool) :
    String.join (row.map fun pixel => if pixel then "#" else ".") =
      String.ofList (row.map mark) := by
  apply String.toList_inj.1
  -- Induction on the row: one mark in front of those of the rest.
  induction row with
  | nil => rfl
  | cons pixel rest ih =>
    simp only [List.map_cons, String.join_cons, String.toList_append, String.toList_ofList] at ih ⊢
    rw [ih]
    cases pixel <;> rfl

/-- The picture with marks, line by line. -/
theorem characters_eq (rows : List (List Bool)) :
    characters rows = joinLines (rows.map (·.map mark)) := by
  rw [characters, withMarks, joinLines, List.map_map]
  simp only [Function.comp_def, join_marks]

/-! ## Lines of pictures -/

/-- The lines of a picture are found again. -/
private theorem lines_joinLines {lines : List (List Char)} (hne : lines ≠ [])
    (h : ∀ line ∈ lines, '\n' ∉ line) : Text.lines (joinLines lines) = lines := by
  have hpieces : ∀ piece ∈ lines.map String.ofList, '\n' ∉ piece.toList := by
    intro piece hpiece
    obtain ⟨line, hline, rfl⟩ := List.mem_map.1 hpiece
    rw [String.toList_ofList]
    exact h line hline
  rw [joinLines, Text.lines_intercalate (by rwa [ne_eq, List.map_eq_nil_iff]) hpieces, List.map_map]
  simp only [Function.comp_def, String.toList_ofList, List.map_id']

/-- The lines of a picture that has a character for each entry of a grid. -/
private theorem lines_glyphs {glyph : α → Char} {rows : List (List α)} (hne : rows ≠ [])
    (h : ∀ a, glyph a ≠ '\n') :
    Text.lines (joinLines (rows.map (·.map glyph))) = rows.map (·.map glyph) := by
  refine lines_joinLines (by rwa [ne_eq, List.map_eq_nil_iff]) fun line hline hend => ?_
  obtain ⟨row, -, rfl⟩ := List.mem_map.1 hline
  obtain ⟨a, -, ha⟩ := List.mem_map.1 hend
  exact h a ha

/-- The lines of a picture in half blocks are the lines of pairs, with a glyph for each. -/
theorem lines_halfBlocks {rows : List (List Bool)} (hne : rows ≠ []) :
    Text.lines (halfBlocks rows) = (pairRows false rows).map (·.map halfBlock) := by
  refine lines_glyphs ?_ fun pair => ?_
  · rw [ne_eq, ← List.length_eq_zero_iff, length_pairRows]
    have hlength := List.length_pos_iff.2 hne
    omega
  · obtain ⟨top, bottom⟩ := pair
    cases top <;> cases bottom <;> decide

/-- The lines of a picture with marks are the rows, with a mark for each pixel. -/
theorem lines_characters {rows : List (List Bool)} (hne : rows ≠ []) :
    Text.lines (characters rows) = rows.map (·.map mark) := by
  rw [characters_eq]
  exact lines_glyphs hne fun pixel => by cases pixel <;> decide

/-! ## Grids read back -/

/-- The grid that a picture with marks shows. -/
def readMarks (text : String) : List (List Bool) :=
  (Text.lines text).map (·.map fun c => c = '#')

/-- The grid of so many rows that a picture in half blocks shows. -/
def readHalfBlocks (height : Nat) (text : String) : List (List Bool) :=
  (unpairRows ((Text.lines text).map
    (·.map fun glyph => (upperLit glyph, lowerLit glyph)))).take height

/-- A picture with marks is read back. -/
private theorem readMarks_characters {rows : List (List Bool)} (hne : rows ≠ []) :
    readMarks (characters rows) = rows := by
  have hmark (pixel : Bool) : decide (mark pixel = '#') = pixel := by cases pixel <;> decide
  simp only [readMarks, lines_characters hne, List.map_map, Function.comp_def, hmark, List.map_id']

/-- A picture in half blocks is read back, if the number of rows is known. -/
private theorem Grid.readHalfBlocks_halfBlocks {rows : List (List Bool)} (h : Grid width rows) :
    readHalfBlocks rows.length (halfBlocks rows) = rows := by
  simp only [readHalfBlocks, lines_halfBlocks h.nonempty, List.map_map, Function.comp_def,
    halves_halfBlock, List.map_id']
  exact take_unpairRows h.rectangular

/-- Both pictures of a grid of ones and zeros show it. The one in half blocks has a line for every
    two rows, with as many characters as the grid is wide, and the one with marks has a line for
    every row. A half block is lit above and below as the marks say that it stands for, and below
    the last row nothing is lit. Each picture is read back as the grid, the one in half blocks if it
    is known how many rows there are, and so different grids of the same shape have different
    pictures. -/
theorem halfBlocks_agree_characters {rows : List (List Bool)} (h : Grid width rows) :
    ∃ blocks, halfBlocks? (rows.map (·.map Pixel.ofBool)) = .ok blocks ∧
      let blockLines := Text.lines blocks
      let markLines := Text.lines (characters rows)
      (blockLines.length = (rows.length + 1) / 2 ∧ ∀ line ∈ blockLines, line.length = width) ∧
      (markLines.length = rows.length ∧ ∀ line ∈ markLines, line.length = width) ∧
      (∀ line < (rows.length + 1) / 2, ∀ column < width, ∃ glyph,
        cell blockLines line column = some glyph ∧
        (upperLit glyph = true ↔ cell markLines (2 * line) column = some '#') ∧
        (lowerLit glyph = true ↔ cell markLines (2 * line + 1) column = some '#')) ∧
      (readHalfBlocks rows.length blocks = rows ∧ readMarks (characters rows) = rows) ∧
      ∀ other, Grid width other → other.length = rows.length → other ≠ rows →
        halfBlocks? (other.map (·.map Pixel.ofBool)) ≠ .ok blocks ∧
        characters other ≠ characters rows := by
  have hmarks := readMarks_characters h.nonempty
  have hblocks := h.readHalfBlocks_halfBlocks
  refine ⟨_, halfBlocks?_ofBool rows, ?_, ?_, fun line hline column hcolumn => ?_,
    ⟨hblocks, hmarks⟩, fun other hother hlength hne => ⟨fun heq => hne ?_, fun heq => hne ?_⟩⟩
  · rw [lines_halfBlocks h.nonempty, List.length_map, length_pairRows, List.forall_mem_map]
    refine ⟨rfl, fun line hline => ?_⟩
    rw [List.length_map]
    exact length_of_mem_pairRows h.rectangular line hline
  · rw [lines_characters h.nonempty, List.length_map, List.forall_mem_map]
    refine ⟨rfl, fun row hrow => ?_⟩
    rw [List.length_map]
    exact h.rectangular row hrow
  · obtain ⟨top, htop⟩ := h.exists_cell_eq_some (by omega : 2 * line < rows.length) hcolumn
    -- Below an odd last row there is no mark, and the pair has a blank there.
    have hpair : cell (pairRows false rows) line column =
        some (top, (cell rows (2 * line + 1) column).getD false) := by
      rw [cell_pairRows h.rectangular, htop, Option.map_some]
    have hhalves := Prod.mk.inj
      (halves_halfBlock (top, (cell rows (2 * line + 1) column).getD false))
    refine ⟨_, by rw [lines_halfBlocks h.nonempty, cell_map, hpair, Option.map_some], ?_, ?_⟩
    · rw [hhalves.1, lines_characters h.nonempty, cell_map, htop, map_mark_eq_some_iff]
      rfl
    · rw [hhalves.2, lines_characters h.nonempty, cell_map, map_mark_eq_some_iff]
  -- Reading is a function: grids with the same picture are read back as the same grid.
  · rw [halfBlocks?_ofBool] at heq
    rw [← hother.readHalfBlocks_halfBlocks, Except.ok.inj heq, hlength, hblocks]
  · rw [← readMarks_characters hother.nonempty, heq, hmarks]

/-- The last of three rows is shown above nothing. -/
theorem halfBlocks_agree_characters_threeRows :
    let rows := [[true, false, true], [true, true, false], [false, false, true]]
    ∃ blocks, Grid 3 rows ∧ halfBlocks? (rows.map (·.map Pixel.ofBool)) = .ok blocks ∧
      (blocks = "█▄▀\n  ▀" ∧ characters rows = "#.#\n##.\n..#") ∧
      readHalfBlocks 3 blocks = rows ∧ readMarks (characters rows) = rows := by
  intro rows
  have hgrid : Grid 3 rows := ⟨by decide, by decide⟩
  obtain ⟨blocks, hblocks, -, -, -, hread, -⟩ := halfBlocks_agree_characters hgrid
  have htexts : halfBlocks rows = "█▄▀\n  ▀" ∧ characters rows = "#.#\n##.\n..#" := by
    decide +kernel
  rw [Except.ok.inj ((halfBlocks?_ofBool rows).symm.trans hblocks)] at htexts
  exact ⟨blocks, hgrid, hblocks, htexts, hread⟩

end Chip8.Picture
