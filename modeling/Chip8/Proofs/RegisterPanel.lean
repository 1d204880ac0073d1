import Chip8.Proofs.Dumps

/-!
# The register panel read back

The entries of a line stand two blanks apart. An entry has single blanks, one between the name of
the register and its value, and one in each mark if it is highlighted, so that the entries are found
again by cutting the line at its double blanks. An entry tells its register, the value, and whether
it is highlighted; it tells nothing else. The registers are counted downwards, so that a register
has its line and its place in the line by its number.

## Key results

- `Text.columns_intercalate`: pieces that stand two blanks apart are found again
- `Registers.Tells.unique`: what an entry tells
- `Registers.panel_shows`: what the panel of registers shows beside a snapshot of others
-/

namespace Chip8

/-! ## Pieces two blanks apart -/

namespace Text

variable {pieces : List (List Char)}

/-- The pieces of a line that stand two blanks apart. -/
def columns (line : List Char) : List (List Char) :=
  ((line.splitOn ' ').splitOn []).map ([' '].intercalate ·)

/-- Cut at every blank, pieces two blanks apart have an empty word between them. -/
private theorem splitOn_intercalate_blanks (hne : pieces ≠ []) :
    ([' ', ' '].intercalate pieces).splitOn ' ' =
      [[]].intercalate (pieces.map (List.splitOn ' ')) := by
  -- Induction on the pieces; between two of them there is nothing between two blanks.
  induction pieces with
  | nil => exact absurd rfl hne
  | cons first rest ih =>
    by_cases hrest : rest = []
    · rw [hrest, List.intercalate_singleton, List.map_singleton, List.intercalate_singleton]
    · have hmap : rest.map (List.splitOn ' ') ≠ [] := by
        rwa [ne_eq, List.map_eq_nil_iff]
      have hline : [' ', ' '].intercalate (first :: rest) =
          first ++ ' ' :: ([] ++ ' ' :: [' ', ' '].intercalate rest) := by
        rw [List.intercalate_cons_of_ne_nil hrest, List.append_assoc]
        rfl
      rw [hline, List.splitOn_append_cons_self,
        List.splitOn_append_cons_self_of_not_mem List.not_mem_nil, ih hrest, List.map_cons,
        List.intercalate_cons_of_ne_nil hmap, List.append_assoc]
      rfl

/-- Pieces without double blanks that stand two blanks apart are found again. -/
theorem columns_intercalate (hne : pieces ≠ []) (h : ∀ piece ∈ pieces, [] ∉ piece.splitOn ' ') :
    columns ([' ', ' '].intercalate pieces) = pieces := by
  have hmap : pieces.map (List.splitOn ' ') ≠ [] := by
    rwa [ne_eq, List.map_eq_nil_iff]
  have hwords : ∀ words ∈ pieces.map (List.splitOn ' '), [] ∉ words := by
    intro words hwords
    obtain ⟨piece, hpiece, rfl⟩ := List.mem_map.1 hwords
    exact h piece hpiece
  have hpieces : (fun piece : List Char => [' '].intercalate (piece.splitOn ' ')) = id :=
    funext fun piece => List.intercalate_splitOn ' '
  rw [columns, splitOn_intercalate_blanks hne, List.splitOn_intercalate [] hwords hmap,
    List.map_map]
  exact (congrArg (List.map · pieces) hpieces).trans (List.map_id pieces)

end Text

namespace Registers

variable {cs : List Char} {r r' : Register} {value value' : UInt8} {changed changed' : Bool}
  {now before : Registers}

/-! ## Entries -/

/-- The entry names the register and its value in hexadecimal digits, between marks if it is
    highlighted. -/
def Tells (cs : List Char) (r : Register) (value : UInt8) (changed : Bool) : Prop :=
  ∃ name digits, Text.IsField 1 r.val name ∧ Text.IsField 2 value.toNat digits ∧
    cs = (if changed then changedOpening.toList else []) ++
      ('V' :: name ++ [' ', '0', 'x'] ++ digits) ++
      (if changed then changedClosing.toList else [])

/-- A highlighted entry begins with a bracket, any other one with the name of a register. -/
private theorem Tells.head? (h : Tells cs r value changed) :
    cs.head? = some (if changed then '[' else 'V') := by
  obtain ⟨name, digits, -, -, rfl⟩ := h
  cases changed with
  | false => rfl
  | true =>
    have hopening : changedOpening.toList = '[' :: changedOpening.toList.tail := by decide +kernel
    rw [if_pos rfl, hopening]
    rfl

/-- An entry tells one register, one value, and one thing of the two whether it changed. -/
theorem Tells.unique (h : Tells cs r value changed) (h' : Tells cs r' value' changed') :
    r = r' ∧ value = value' ∧ changed = changed' := by
  -- The first character tells whether the entry is highlighted, and the rest is then compared.
  have hhead := h.head?.symm.trans h'.head?
  obtain rfl : changed = changed' := by
    revert hhead
    cases changed <;> cases changed' <;> decide
  obtain ⟨name, digits, hname, hdigits, hcs⟩ := h
  obtain ⟨name', digits', hname', hdigits', hcs'⟩ := h'
  have hplain := List.append_cancel_left (List.append_cancel_right (hcs.symm.trans hcs'))
  -- All names have one length, and so have all digits.
  obtain ⟨hleft, rfl⟩ := List.append_inj' hplain (hdigits.width.trans hdigits'.width.symm)
  obtain rfl : name = name' := (List.cons.inj (List.append_cancel_right hleft)).2
  exact ⟨Fin.ext (hname.unique hname'), UInt8.toNat_inj.1 (hdigits.unique hdigits'), rfl⟩

/-- The entry of a register beside its earlier value. -/
def entryBeside (now before : Registers) (r : Register) : String :=
  if now.read r ≠ before.read r then highlight (entry r (now.read r)) else entry r (now.read r)

/-- The entry tells the register, its value, and whether this differs from the earlier one. -/
private theorem tells_entryBeside (now before : Registers) (r : Register) :
    Tells (entryBeside now before r).toList r (now.read r)
      (decide (now.read r ≠ before.read r)) := by
  refine ⟨_, _, Text.isField_hexField (by decide) r.isLt,
    Text.isField_hexField (by decide) (now.read r).toNat_lt, ?_⟩
  -- The digits of an entry are fields of fixed width.
  have hentry : (entry r (now.read r)).toList =
      'V' :: Text.hexField 1 r.val ++ [' ', '0', 'x'] ++ Text.hexField 2 (now.read r).toNat := by
    simp only [entry, Text.hexByte, String.toList_append, Text.toList_hex]
    rfl
  unfold entryBeside
  split
  · next h =>
    rw [decide_eq_true h, if_pos rfl, if_pos rfl, highlight, String.toList_append,
      String.toList_append, hentry]
  · next h =>
    rw [decide_eq_false h, hentry, if_neg Bool.false_ne_true, if_neg Bool.false_ne_true,
      List.nil_append, List.append_nil]

/-- The words of an entry. -/
def entryWords (name digits : List Char) (changed : Bool) : List (List Char) :=
  if changed then
    [['[', 'b', 'o', 'l', 'd'], ['y', 'e', 'l', 'l', 'o', 'w', ']', 'V'] ++ name,
      ['0', 'x'] ++ digits ++ ['[', '/', 'b', 'o', 'l', 'd'], ['y', 'e', 'l', 'l', 'o', 'w', ']']]
  else ['V' :: name, ['0', 'x'] ++ digits]

/-- An entry is made up of its words. -/
private theorem Tells.exists_words (h : Tells cs r value changed) :
    ∃ words, cs = [' '].intercalate words ∧ words ≠ [] ∧
      ∀ word ∈ words, word ≠ [] ∧ ' ' ∉ word ∧ '\n' ∉ word := by
  obtain ⟨name, digits, hname, hdigits, rfl⟩ := h
  -- The marks hold one blank each, which is why a highlighted entry has two words more.
  have hmarks : changedOpening.toList = ['[', 'b', 'o', 'l', 'd', ' '] ++
      ['y', 'e', 'l', 'l', 'o', 'w', ']'] ∧
      changedClosing.toList = ['[', '/', 'b', 'o', 'l', 'd', ' '] ++
        ['y', 'e', 'l', 'l', 'o', 'w', ']'] := by decide +kernel
  have hblank : ' ' ∉ name ∧ ' ' ∉ digits :=
    ⟨hname.not_mem (by decide), hdigits.not_mem (by decide)⟩
  have hend : '\n' ∉ name ∧ '\n' ∉ digits :=
    ⟨hname.not_mem (by decide), hdigits.not_mem (by decide)⟩
  refine ⟨entryWords name digits changed, ?_, ?_, ?_⟩
  · cases changed <;> simp [entryWords, hmarks, List.intercalate]
  · cases changed <;> simp [entryWords]
  · cases changed <;> simp [entryWords, hblank, hend]

/-- An entry is one line, and has no double blank. -/
private theorem Tells.single (h : Tells cs r value changed) : '\n' ∉ cs ∧ [] ∉ cs.splitOn ' ' := by
  obtain ⟨words, rfl, hne, hwords⟩ := h.exists_words
  constructor
  · intro hmem
    obtain hblank | ⟨word, hword, hend⟩ := Text.mem_or_mem_of_mem_intercalate hmem
    · exact absurd hblank (by decide)
    · exact (hwords word hword).2.2 hend
  · rw [List.splitOn_intercalate ' ' (fun word hword => (hwords word hword).2.1) hne]
    exact fun hnil => (hwords [] hnil).1 rfl

/-! ## The panel -/

/-- The entries of a panel, line by line. -/
def entriesOf (text : String) : List (List (List Char)) :=
  (Text.lines text).map Text.columns

/-- A register is compared with its own value in the snapshot. -/
private theorem panelEntry_snapshot (now before : Registers) (r : Register) :
    now.panelEntry (some before.snapshot) r = .ok (entryBeside now before r) := by
  -- The snapshot holds the number in a byte, and bytes with the same number are the same.
  have hearlier : before.snapshot[r.val]? = some ((before.read r).toNat : Int) := by
    rw [snapshot, List.getElem?_map, toList, Vector.getElem?_toList,
      Vector.getElem?_eq_getElem r.isLt]
    rfl
  have hsame : (((now.read r).toNat : Int) ≠ ((before.read r).toNat : Int)) ↔
      now.read r ≠ before.read r := by
    rw [ne_eq, Int.ofNat_inj, UInt8.toNat_inj]
  simp only [panelEntry, hearlier, entryBeside, hsame]

/-- A line of the panel beside a snapshot. -/
def lineBeside (now before : Registers) (row : Fin 4) : String :=
  String.intercalate "  " ((panelRow row).map (entryBeside now before))

/-- The lines of the panel beside a snapshot. -/
private theorem panel_snapshot (now before : Registers) :
    now.panel (some before.snapshot) =
      .ok (String.intercalate "\n" (List.ofFn (lineBeside now before))) := by
  -- No register is missing in a snapshot, so that no entry fails.
  have hentries : now.panelEntry (some before.snapshot) =
      fun r => pure (entryBeside now before r) := funext (panelEntry_snapshot now before)
  have hlines : ((List.finRange 4).mapM fun row => do
      let entries ← (panelRow row).mapM (now.panelEntry (some before.snapshot))
      return String.intercalate "  " entries : Except RegisterError (List String)) =
      pure ((List.finRange 4).map (lineBeside now before)) := by
    simp only [hentries, List.mapM_pure, pure_bind]
    rfl
  rw [panel, hlines, List.ofFn_eq_map]
  rfl

/-- The entries of the panel beside a snapshot. -/
private theorem entriesOf_panel (now before : Registers) :
    entriesOf (String.intercalate "\n" (List.ofFn (lineBeside now before))) =
      List.ofFn fun row => (panelRow row).map fun r => (entryBeside now before r).toList := by
  -- A line is its entries two blanks apart, and no entry looks like two of them.
  have hline (row : Fin 4) : (lineBeside now before row).toList =
      [' ', ' '].intercalate ((panelRow row).map fun r => (entryBeside now before r).toList) := by
    rw [lineBeside, String.toList_intercalate, List.map_map]
    rfl
  have hsingle (row : Fin 4) : ∀ cs ∈ (panelRow row).map fun r =>
      (entryBeside now before r).toList, '\n' ∉ cs ∧ [] ∉ cs.splitOn ' ' := by
    intro cs hcs
    obtain ⟨r, -, rfl⟩ := List.mem_map.1 hcs
    exact (tells_entryBeside now before r).single
  have hends : ∀ line ∈ List.ofFn (lineBeside now before), '\n' ∉ line.toList := by
    intro line hline'
    obtain ⟨row, rfl⟩ := List.mem_ofFn.1 hline'
    rw [hline]
    intro hmem
    obtain hblank | ⟨cs, hcs, hend⟩ := Text.mem_or_mem_of_mem_intercalate hmem
    · exact absurd hblank (by decide)
    · exact (hsingle row cs hcs).1 hend
  have hne : List.ofFn (lineBeside now before) ≠ [] := by
    rw [ne_eq, List.ofFn_eq_nil_iff]
    decide
  rw [entriesOf, Text.lines_intercalate hne hends, List.map_ofFn, List.map_ofFn]
  refine congrArg List.ofFn (funext fun row => ?_)
  have hrow : ((panelRow row).map fun r => (entryBeside now before r).toList) ≠ [] := by
    rw [ne_eq, List.map_eq_nil_iff]
    exact List.cons_ne_nil _ _
  rw [Function.comp_apply, Function.comp_apply, hline]
  exact Text.columns_intercalate hrow fun cs hcs => (hsingle row cs hcs).2

/-- The entries of a line are four registers apart. -/
private theorem getElem?_panelRow (row : Fin 4) (position : Nat) :
    (panelRow row)[position]? =
      if h : position < 4 then some ⟨row.val + 4 * position, by omega⟩ else none := by
  rw [panelRow, ← List.ofFn_eq_map, List.getElem?_ofFn]

/-- Each register has its place in the panel, and there are no other entries. -/
private theorem cell_entriesOf_panel {line position : Nat} :
    Picture.cell (entriesOf (String.intercalate "\n" (List.ofFn (lineBeside now before)))) line
        position = some cs ↔
      ∃ r : Register, line = r.val % 4 ∧ position = r.val / 4 ∧
        cs = (entryBeside now before r).toList := by
  -- Line and position together are the number of a register, in base four.
  rw [entriesOf_panel, Picture.cell, List.getElem?_ofFn]
  constructor
  · intro h
    obtain ⟨entries, hline, hentry⟩ := Option.bind_eq_some_iff.1 h
    split at hline
    · next hlt =>
      cases hline
      rw [List.getElem?_map, getElem?_panelRow] at hentry
      split at hentry
      · next hlt' =>
        cases hentry
        exact ⟨⟨line + 4 * position, by omega⟩, by dsimp only; omega, by dsimp only; omega, rfl⟩
      · cases hentry
    · cases hline
  · rintro ⟨r, rfl, rfl, rfl⟩
    have hr := r.isLt
    have hplace : (⟨r.val % 4 + 4 * (r.val / 4), by omega⟩ : Register) = r :=
      Fin.ext (Nat.mod_add_div r.val 4)
    rw [dif_pos (Nat.mod_lt _ (by decide)), Option.bind_some, List.getElem?_map, getElem?_panelRow,
      dif_pos (by omega)]
    simp only [hplace, Option.map_some]

/-- The panel shows registers beside earlier ones: four lines of four entries, among which each
    register stands once, counted downwards, with its value, and is highlighted if and only if this
    differs from its earlier value. -/
structure PanelShows (text : String) (now before : Registers) : Prop where
  lines : (entriesOf text).length = 4
  entries : ∀ line ∈ entriesOf text, line.length = 4
  entry : ∀ r : Register, ∃ cs,
    Picture.cell (entriesOf text) (r.val % 4) (r.val / 4) = some cs ∧
      ∀ value changed, Tells cs r value changed ↔
        value = now.read r ∧ (changed = true ↔ now.read r ≠ before.read r)
  once : ∀ (r : Register) (line position : Nat) (cs : List Char) (value : UInt8) (changed : Bool),
    Picture.cell (entriesOf text) line position = some cs → Tells cs r value changed →
      line = r.val % 4 ∧ position = r.val / 4

/-- Beside a snapshot the panel shows which registers differ from it. -/
theorem panel_shows (now before : Registers) :
    ∃ text, now.panel (some before.snapshot) = .ok text ∧ PanelShows text now before := by
  refine ⟨_, panel_snapshot now before, ?_, ?_, fun r => ?_, ?_⟩
  · rw [entriesOf_panel, List.length_ofFn]
  · intro line hline
    rw [entriesOf_panel] at hline
    obtain ⟨row, rfl⟩ := List.mem_ofFn.1 hline
    rfl
  -- At the place of the register there is its entry, and that entry tells nothing else.
  · refine ⟨_, cell_entriesOf_panel.2 ⟨r, rfl, rfl, rfl⟩, fun value changed => ?_⟩
    have htells := tells_entryBeside now before r
    constructor
    · intro h
      obtain ⟨-, rfl, rfl⟩ := h.unique htells
      exact ⟨rfl, decide_eq_true_iff⟩
    · rintro ⟨rfl, hchanged⟩
      obtain rfl : changed = decide (now.read r ≠ before.read r) := by
        rw [Bool.eq_iff_iff, decide_eq_true_iff]
        exact hchanged
      exact htells
  -- An entry that tells the register is its own, which stands in one place only.
  · intro r line position cs value changed hcell h
    obtain ⟨r', rfl, rfl, rfl⟩ := cell_entriesOf_panel.1 hcell
    obtain ⟨rfl, -, -⟩ := h.unique (tells_entryBeside now before r')
    exact ⟨rfl, rfl⟩

end Registers

end Chip8
