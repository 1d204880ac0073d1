import Chip8.Proofs.Lines
import Chip8.Proofs.Numerals
import Chip8.Proofs.Rendering
import Chip8.Proofs.Transfers

/-!
# Hex dumps read back

A row of a dump has a fixed layout: an address, sixteen fields with a wider gap in the middle, and a
column between bars. In the column anything can stand that is printable, also bars and blanks, but
it stands behind all fields. So the fields are found again by cutting the row at its blanks, and
they tell the bytes. A row begins at a multiple of sixteen, hence none of its bytes lies across the
top of memory, and as many rows as memory has tell what memory holds.

## Key results

- `Text.IsField`, `Text.isField_hexField`: fields of a width, read as numbers
- `HexDump.layout`, `HexDump.fieldsOf_layout`: the layout of a row, and its fields found again
- `HexDump.row_inj`: different rows of bytes are shown differently
- `HexDump.text_shows_memory`: what a dump shows
-/

namespace Chip8

namespace Text

/-- The hexadecimal digits in upper case. -/
def upperDigits : List Char :=
  ['0', '1', '2', '3', '4', '5', '6', '7', '8', '9', 'A', 'B', 'C', 'D', 'E', 'F']

/-- So many upper-case digits, which are read as the number. -/
structure IsField (width n : Nat) (cs : List Char) : Prop where
  width : cs.length = width
  digits : ∀ c ∈ cs, c ∈ upperDigits
  value : integer? .sixteen (String.ofList cs) = some (n : Int)

/-- A field is its digits with zeros in front. -/
private theorem hexField_natCast (width n : Nat) :
    hexField width n = List.replicate (width - (hexDigits n).length) '0' ++ hexDigits n :=
  rfl

/-- A number that fits is shown as a field of the width. -/
theorem isField_hexField {width n : Nat} (hwidth : 0 < width) (h : n < 16 ^ width) :
    IsField width n (hexField width n) where
  width := length_hexField hwidth h
  digits := by
    have hdigits : ∀ d : Fin 16, hexDigit d ∈ upperDigits := by decide
    intro c hc
    rw [hexField_natCast, List.mem_append] at hc
    obtain hzero | hdigit := hc
    · obtain rfl := List.eq_of_mem_replicate hzero
      exact List.mem_cons_self
    · obtain ⟨d, rfl⟩ := exists_hexDigit_of_mem hdigit
      exact hdigits d
  value := by
    have hread := (spells_hexField width n).integer? (by decide : [] ∈ marks)
    rwa [List.nil_append] at hread

/-- A field holds nothing but digits. -/
theorem IsField.not_mem {width n : Nat} {cs : List Char} (h : IsField width n cs) {c : Char}
    (hc : c ∉ upperDigits) : c ∉ cs :=
  fun hmem => hc (h.digits c hmem)

/-- The same field is no other number. -/
theorem IsField.unique {width k n : Nat} {cs : List Char} (h : IsField width n cs)
    (h' : IsField width k cs) : n = k :=
  Int.ofNat.inj (Option.some.inj (h.value.symm.trans h'.value))

/-- A field is read as one number. -/
private theorem hexField_inj {width n k : Nat} (h : hexField width n = hexField width k) :
    n = k := by
  have hn := (spells_hexField width n).magnitude?
  have hk := (spells_hexField width k).magnitude?
  rw [h] at hn
  exact Option.some.inj (hn.symm.trans hk)

end Text

namespace HexDump

variable {digits column : List Char} {fields : List (List Char)}

/-! ## The layout of a row -/

/-- A row: the digits of an address, fields with a wider gap after the eighth, and a column of
    characters between bars. -/
def layout (digits : List Char) (fields : List (List Char)) (column : List Char) : List Char :=
  ['0', 'x'] ++ digits ++ [':', ' '] ++ [' '].intercalate (fields.take 8) ++ [' ', ' '] ++
    [' '].intercalate (fields.drop 8) ++ [' ', ' ', '|'] ++ column ++ ['|']

/-- The digits of the address of a row. -/
def digitsOf (line : List Char) : List Char :=
  (line.drop 2).take 3

/-- The fields of a row: eight words behind the address and eight behind the wider gap. -/
def fieldsOf (line : List Char) : List (List Char) :=
  let words := line.splitOn ' '
  (words.drop 1).take 8 ++ (words.drop 10).take 8

/-- The digits of the address are found again. -/
private theorem digitsOf_layout (h : digits.length = 3) :
    digitsOf (layout digits fields column) = digits := by
  simp only [digitsOf, layout, List.cons_append, List.nil_append, List.append_assoc,
    List.drop_succ_cons, List.drop_zero]
  rw [← h]
  exact List.take_left' rfl

/-- Cutting a row at its blanks. -/
private theorem splitOn_layout (hdigits : ' ' ∉ digits) (hfields : ∀ field ∈ fields, ' ' ∉ field)
    (hlength : fields.length = 16) :
    (layout digits fields column).splitOn ' ' =
      ('0' :: 'x' :: (digits ++ [':'])) :: (fields.take 8 ++ [] :: (fields.drop 8 ++
        [] :: ('|' :: (column ++ ['|'])).splitOn ' ')) := by
  -- The row as `splitOn` sees it: pieces without a blank, and a blank between any two.
  have hrow : layout digits fields column = ('0' :: 'x' :: (digits ++ [':'])) ++
      ' ' :: ([' '].intercalate (fields.take 8) ++ ' ' :: ([] ++
      ' ' :: ([' '].intercalate (fields.drop 8) ++ ' ' :: ([] ++
      ' ' :: ('|' :: (column ++ ['|'])))))) := by
    simp only [layout, List.cons_append, List.nil_append, List.append_assoc]
  have hhead : ' ' ∉ '0' :: 'x' :: (digits ++ [':']) := by
    simp [hdigits]
  have hfirst : ([' '].intercalate (fields.take 8)).splitOn ' ' = fields.take 8 := by
    -- The fields hold no blank, and there are some, as each half has eight.
    refine List.splitOn_intercalate ' ' (fun field hfield => ?_) fun hnil => ?_
    · exact hfields field (List.mem_of_mem_take hfield)
    · have hempty := congrArg List.length hnil
      simp [hlength] at hempty
  have hsecond : ([' '].intercalate (fields.drop 8)).splitOn ' ' = fields.drop 8 := by
    refine List.splitOn_intercalate ' ' (fun field hfield => ?_) fun hnil => ?_
    · exact hfields field (List.mem_of_mem_drop hfield)
    · have hempty := congrArg List.length hnil
      simp [hlength] at hempty
  rw [hrow, List.splitOn_append_cons_self_of_not_mem hhead, List.splitOn_append_cons_self, hfirst,
    List.splitOn_append_cons_self_of_not_mem List.not_mem_nil, List.splitOn_append_cons_self,
    hsecond, List.splitOn_append_cons_self_of_not_mem List.not_mem_nil]

/-- The fields are found again, whatever stands in the column. -/
theorem fieldsOf_layout (hdigits : ' ' ∉ digits) (hfields : ∀ field ∈ fields, ' ' ∉ field)
    (hlength : fields.length = 16) : fieldsOf (layout digits fields column) = fields := by
  have hfirst : (fields.take 8).length = 8 := by rw [List.length_take]; omega
  have hsecond : (fields.drop 8).length = 8 := by rw [List.length_drop]; omega
  have hgap : (fields.take 8 ++ [[]]).length = 9 := by rw [List.length_append, hfirst]; rfl
  simp only [fieldsOf, splitOn_layout hdigits hfields hlength, List.drop_succ_cons, List.drop_zero]
  rw [List.take_left' hfirst, List.append_cons, List.drop_left' hgap, List.take_left' hsecond,
    List.take_append_drop]

/-! ## Rows -/

/-- The fields of bytes. -/
def byteFields (bytes : List UInt8) : List (List Char) :=
  bytes.map fun byte => Text.hexField 2 byte.toNat

/-- Half a row is its fields with a blank between them. -/
private theorem toList_halfRow (bytes : List UInt8) :
    (halfRow bytes).toList = [' '].intercalate (byteFields bytes) := by
  rw [halfRow, String.toList_intercalate, List.map_map]
  simp only [Function.comp_def, Text.hexByte, Text.toList_hex]
  rfl

/-- A row has the layout of rows. -/
private theorem toList_row (a : Address) (bytes : List UInt8) :
    (row a bytes).toList =
      layout (Text.hexField 3 a.val) (byteFields bytes) (bytes.map character) := by
  simp only [row, Address.text, String.toList_append, String.toList_ofList, Text.toList_hex,
    toList_halfRow, layout, byteFields, List.map_take, List.map_drop]
  rfl

/-- Different rows are shown differently. -/
theorem row_inj {a b : Address} {bytes other : List UInt8} (hbytes : bytes.length = 16)
    (hother : other.length = 16) (h : row a bytes = row b other) : a = b ∧ bytes = other := by
  have hwidth (a : Address) : (Text.hexField 3 a.val).length = 3 :=
    Text.length_hexField (by decide) a.isLt
  have hblank (width n : Nat) : ' ' ∉ Text.hexField width n :=
    (Text.spells_hexField width n).not_mem (by decide)
  have hfields (bytes : List UInt8) : ∀ field ∈ byteFields bytes, ' ' ∉ field := by
    intro field hfield
    obtain ⟨byte, -, rfl⟩ := List.mem_map.1 hfield
    exact hblank 2 byte.toNat
  have hlength {bytes : List UInt8} (h : bytes.length = 16) : (byteFields bytes).length = 16 := by
    rw [byteFields, List.length_map, h]
  -- Address and fields are cut out of the two lines and compared piece by piece.
  have hline := congrArg String.toList h
  rw [toList_row, toList_row] at hline
  have hdigits := congrArg digitsOf hline
  rw [digitsOf_layout (hwidth a), digitsOf_layout (hwidth b)] at hdigits
  have hshown := congrArg fieldsOf hline
  rw [fieldsOf_layout (hblank 3 a.val) (hfields bytes) (hlength hbytes),
    fieldsOf_layout (hblank 3 b.val) (hfields other) (hlength hother)] at hshown
  refine ⟨Fin.ext (Text.hexField_inj hdigits), (List.map_inj_right fun x y hxy => ?_).1 hshown⟩
  exact UInt8.toNat_inj.1 (Text.hexField_inj hxy)

/-! ## Characters of the column -/

/-- A code below 128 is the code of its character. -/
private theorem toNat_ofNat {n : Nat} (h : n < 0x80) : (Char.ofNat n).toNat = n := by
  have all : ∀ n : Fin 0x80, (Char.ofNat n.val).toNat = n.val := by decide +kernel
  exact all ⟨n, h⟩

/-- Exactly the printable bytes are shown as themselves. -/
private theorem toNat_character_eq_iff (byte : UInt8) :
    (character byte).toNat = byte.toNat ↔ 0x20 ≤ byte.toNat ∧ byte.toNat ≤ 0x7E := by
  unfold character
  split
  · next h => exact ⟨fun _ => h, fun _ => toNat_ofNat (by omega)⟩
  · next h =>
    refine ⟨fun heq => ?_, fun hprintable => absurd hprintable h⟩
    -- A dot stands for what is not printable, and a dot is printable itself.
    have hdot : '.'.toNat = 0x2E := rfl
    omega

/-- No byte is shown as a line end. -/
private theorem character_ne_newline (byte : UInt8) : character byte ≠ '\n' := by
  unfold character
  split
  · next h =>
    intro heq
    have hcode := congrArg Char.toNat heq
    rw [toNat_ofNat (by omega)] at hcode
    have hnewline : '\n'.toNat = 10 := rfl
    omega
  · decide

/-- A row is one line. -/
private theorem not_mem_row (a : Address) (bytes : List UInt8) : '\n' ∉ (row a bytes).toList := by
  have hdigits (width n : Nat) : '\n' ∉ Text.hexField width n :=
    (Text.spells_hexField width n).not_mem (by decide)
  have hfields {bytes : List UInt8} : '\n' ∉ [' '].intercalate (byteFields bytes) := by
    intro h
    obtain hblank | ⟨field, hfield, hmem⟩ := Text.mem_or_mem_of_mem_intercalate h
    · exact absurd hblank (by decide)
    · obtain ⟨byte, -, rfl⟩ := List.mem_map.1 hfield
      exact hdigits 2 byte.toNat hmem
  have hcolumn : '\n' ∉ bytes.map character := by
    intro h
    obtain ⟨byte, -, hbyte⟩ := List.mem_map.1 h
    exact character_ne_newline byte hbyte
  -- The parts of the layout one after the other; none of them has a line end.
  rw [toList_row, layout, byteFields, ← List.map_take, ← List.map_drop]
  simp only [List.mem_append, not_or]
  exact ⟨⟨⟨⟨⟨⟨⟨⟨by decide, hdigits 3 a.val⟩, by decide⟩, hfields⟩, by decide⟩, hfields⟩, by decide⟩,
    hcolumn⟩, by decide⟩

/-! ## Dumps -/

/-- The line shows sixteen bytes of memory from an address on: the address in three digits, the
    bytes in two digits each, and in the column the bytes that are printable, and dots. -/
def ShowsRow (m : Ram) (address : Nat) (line : List Char) : Prop :=
  ∃ digits fields column, line = layout digits fields column ∧ Text.IsField 3 address digits ∧
    fields.length = 16 ∧ column.length = 16 ∧
    ∀ i < 16, ∃ byte field c, m.cells.toList[address + i]? = some byte ∧
      (fields[i]? = some field ∧ Text.IsField 2 byte.toNat field) ∧
      column[i]? = some c ∧ (c.toNat = byte.toNat ↔ 0x20 ≤ byte.toNat ∧ byte.toNat ≤ 0x7E) ∧
      (c.toNat ≠ byte.toNat → c = '.')

/-- A row of cells that does not reach across the top of memory shows them. -/
private theorem showsRow_row (m : Ram) {a : Address} (h : a.val + 15 < 4096) :
    ShowsRow m a.val (row a (m.block a 16)).toList := by
  have hlength : (m.block a 16).length = 16 := m.length_block a 16
  refine ⟨_, _, _, toList_row a _, Text.isField_hexField (by decide) a.isLt,
    by rw [byteFields, List.length_map, hlength], by rw [List.length_map, hlength],
    fun i hi => ?_⟩
  -- The row begins low enough for its cells to be counted on without wrapping.
  have hplace : (a + Fin.ofNat 4096 i).val = a.val + i := by
    simp only [Fin.val_add, Fin.val_ofNat]
    omega
  obtain ⟨byte, hread⟩ : ∃ byte, m.read (a + Fin.ofNat 4096 i) = byte := ⟨_, rfl⟩
  have hcell : m.cells.toList[a.val + i]? = some byte := by
    rw [← hplace, m.getElem?_cells, hread]
  have hbyte : (m.block a 16)[i]? = some byte := by
    rw [List.getElem?_eq_getElem (by omega), Memory.getElem_block, hread]
  refine ⟨byte, Text.hexField 2 byte.toNat, character byte, hcell,
    ⟨?_, Text.isField_hexField (by decide) byte.toNat_lt⟩, ?_, toNat_character_eq_iff byte,
    fun hne => ?_⟩
  · rw [byteFields, List.getElem?_map, hbyte]
    rfl
  · rw [List.getElem?_map, hbyte]
    rfl
  · exact if_neg fun hprintable => hne ((toNat_character_eq_iff byte).2 hprintable)

/-- The rows of a dump follow each other from the aligned start on, modulo 4096. -/
private theorem val_rowAddress (start : Int) (r : Nat) :
    ((rowAddress start r).val : Int) = (start - start % 16 + 16 * r) % 4096 := by
  simp only [rowAddress, align, Fin.val_add, Address.val_ofInt]
  omega

/-- The lines of a dump are its rows. -/
private theorem lines_text (m : Ram) (start : Int) {rows : Int} (h : 1 ≤ rows) :
    ∃ dump, text m start rows = .ok dump ∧
      Text.lines dump = List.ofFn fun i : Fin rows.toNat =>
        (row (rowAddress start i) (m.block (rowAddress start i) 16)).toList := by
  refine ⟨_, text_ram m start rows, ?_⟩
  rw [Text.lines_intercalate, List.map_ofFn]
  · rfl
  · intro hnil
    have hlength := congrArg List.length hnil
    rw [List.length_ofFn, List.length_nil] at hlength
    omega
  · intro line hline
    obtain ⟨i, rfl⟩ := List.mem_ofFn.1 hline
    exact not_mem_row _ _

/-- The dump of all rows tells every byte. -/
private theorem text_inj {m m' : Ram} {start start' : Int}
    (h : text m' start' 256 = text m start 256) :
    m' = m := by
  obtain ⟨dump, hdump, hlines⟩ := lines_text m start (by decide : (1 : Int) ≤ 256)
  obtain ⟨dump', hdump', hlines'⟩ := lines_text m' start' (by decide : (1 : Int) ≤ 256)
  obtain rfl : dump' = dump := Except.ok.inj (hdump'.symm.trans (h.trans hdump))
  -- The lines agree row by row, as neither address nor fields hide anything.
  have hrow (r : Fin 256) : rowAddress start' r = rowAddress start r ∧
      m'.block (rowAddress start' r) 16 = m.block (rowAddress start r) 16 := by
    have hline := congrFun (List.ofFn_injective (hlines'.symm.trans hlines)) r
    exact row_inj (m'.length_block _ _) (m.length_block _ _) (String.toList_inj.1 hline)
  refine Memory.ext_read fun a => ?_
  -- The row that holds the address, counted from the first one.
  obtain ⟨r, hr⟩ : ∃ r : Fin 256, (rowAddress start r).val = a.val - a.val % 16 := by
    have ha := a.isLt
    refine ⟨⟨((a.val / 16 - start / 16 : Int) % 256).toNat, by omega⟩, ?_⟩
    have hval := val_rowAddress start ((a.val / 16 - start / 16 : Int) % 256).toNat
    dsimp only
    omega
  obtain ⟨haddress, hbytes⟩ := hrow r
  have hplace : a = rowAddress start r + Fin.ofNat 4096 (a.val % 16) := by
    apply Fin.ext
    have ha := a.isLt
    simp only [Fin.val_add, Fin.val_ofNat, hr]
    omega
  have hlt (m : Ram) (b : Address) : a.val % 16 < (m.block b 16).length := by
    rw [Memory.length_block]
    omega
  have hbyte := List.getElem_of_eq hbytes (hlt _ _)
  rw [Memory.getElem_block, Memory.getElem_block, haddress, ← hplace] at hbyte
  exact hbyte

/-- A dump shows memory as it is. It has as many lines as rows are asked for. Each begins with the
    address of the row, which is a multiple of sixteen and counted on modulo 4096 from the one that
    holds the start, so that no row reaches across the top of memory; its fields are read as the
    bytes of the row, and its column shows those that are printable. Memories with the same dump of
    all rows are equal. -/
theorem text_shows_memory (m : Ram) (start : Int) {rows : Int} (h : 1 ≤ rows) :
    (∃ dump, text m start rows = .ok dump ∧ (Text.lines dump).length = rows.toNat ∧
      ∀ r < rows.toNat, ∃ line, ∃ address : Nat, (Text.lines dump)[r]? = some line ∧
        (address : Int) = (start - start % 16 + 16 * r) % 4096 ∧ address + 15 < 4096 ∧
        ShowsRow m address line) ∧
    ∀ (m' : Ram) (start' : Int), text m' start' 256 = text m start 256 → m' = m := by
  refine ⟨?_, fun m' start' hsame => text_inj hsame⟩
  obtain ⟨dump, hdump, hlines⟩ := lines_text m start h
  refine ⟨dump, hdump, by rw [hlines, List.length_ofFn], fun r hr => ?_⟩
  -- Where a row begins is a multiple of sixteen, so that it ends below the top.
  have hval := val_rowAddress start r
  have hinside : (rowAddress start r).val + 15 < 4096 := by omega
  refine ⟨_, (rowAddress start r).val, ?_, hval, hinside, showsRow_row m hinside⟩
  rw [hlines, List.getElem?_ofFn, dif_pos hr]

/-- The row of the last address is followed by the row of the first one. A bar among the bytes is
    shown between the bars of the column. -/
theorem text_shows_memory_acrossTop :
    let m := ((Memory.blank 4096).write 0xFFF 0x7C).write 0 0x41
    ∃ dump first second, text m (-1) 2 = .ok dump ∧
      dump = "0xFF0: 00 00 00 00 00 00 00 00  00 00 00 00 00 00 00 7C  |...............||\n" ++
        "0x000: 41 00 00 00 00 00 00 00  00 00 00 00 00 00 00 00  |A...............|" ∧
      Text.lines dump = [first, second] ∧ ShowsRow m 0xFF0 first ∧ ShowsRow m 0 second := by
  intro m
  obtain ⟨⟨dump, hdump, hlength, hrows⟩, -⟩ := text_shows_memory m (-1) (by decide : (1 : Int) ≤ 2)
  obtain ⟨first, top, hfirst, htop, -, hshows⟩ := hrows 0 (by decide)
  obtain ⟨second, bottom, hsecond, hbottom, -, hshows'⟩ := hrows 1 (by decide)
  obtain rfl : top = 0xFF0 := by omega
  obtain rfl : bottom = 0 := by omega
  obtain ⟨line, line', hlines⟩ := List.length_eq_two.1 hlength
  rw [hlines] at hfirst hsecond
  obtain rfl : line = first := Option.some.inj hfirst
  obtain rfl : line' = second := Option.some.inj hsecond
  -- The cells are read off the writes, as the row of all cells is too long to be computed.
  have hbytes : m.block 0xFF0 16 = [0, 0, 0, 0, 0, 0, 0, 0, 0, 0, 0, 0, 0, 0, 0, 0x7C] ∧
      m.block 0 16 = [0x41, 0, 0, 0, 0, 0, 0, 0, 0, 0, 0, 0, 0, 0, 0, 0] := by
    simp only [m, Memory.block, Memory.read_write, Memory.read_blank]
    decide
  have htext : text m (-1) 2 = .ok (String.intercalate "\n"
      [row 0xFF0 (m.block 0xFF0 16), row 0 (m.block 0 16)]) := text_ram m (-1) 2
  rw [hdump, hbytes.1, hbytes.2] at htext
  refine ⟨dump, line, line', hdump, (Except.ok.inj htext).trans ?_, hlines, hshows, hshows'⟩
  decide +kernel

end HexDump

end Chip8
