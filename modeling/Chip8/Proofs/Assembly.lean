import Chip8.Disassembly
import Chip8.Proofs.Numerals

/-!
# Assembly

An assembler for the texts of the disassembler. A line is a name and operands, which it writes and
reads in a uniform way; only the table from names and operands to instructions tells the
instructions apart that share a name. So an instruction is read back from its text, an undefined
word from its data directive, and a program from its listing, but for the zero that an odd last
byte is taken with.

## Key results

- `Assembly.Operand.ofChars?_text`, `Assembly.Statement.ofText?_text`: operands and lines are read
  back
- `Assembly.text_statement`, `Assembly.instruction?_statement`: the line of an instruction, and the
  instruction of that line
- `Assembly.assemble?_text`: the assembler inverts the disassembler
- `Listing.flatMap_bytes_ofProgram`: the words of a listing are the bytes of the program
- `Listing.ofProgram_lossless`: a listing determines its program
-/

namespace Chip8

namespace Assembly

/-! ## Lines of assembly -/

/-- What an instruction works on, as it stands behind the name. -/
inductive Operand
  | register (r : Register)
  | byte (byte : UInt8)
  | address (a : Address)
  -- All four digits of a word.
  | word (w : Word)
  -- A number of rows, in decimal.
  | rows (n : Nibble)
  | index
  -- What the index points to.
  | memory
  | delay
  | sound
  | key
  | glyph
  | decimal
deriving DecidableEq, Repr

/-- How an operand is written. -/
def Operand.text : Operand → String
  | register r => Instruction.registerName r
  | byte b => Instruction.byteText b
  | address a => a.text
  | word w => "0x" ++ Text.hex 4 w.toNat
  | rows n => toString n.val
  | index => "I"
  | memory => "[I]"
  | delay => "DT"
  | sound => "ST"
  | key => "K"
  | glyph => "F"
  | decimal => "B"

/-- The operand of a hexadecimal numeral, of which the width says how large it is. -/
def Operand.ofWidth? (width n : Nat) : Option Operand :=
  match width with
  | 2 => some (byte (UInt8.ofNat n))
  | 3 => some (address (Address.ofInt n))
  | 4 => some (word (Word.ofNat n))
  | _ => none

/-- Reads an operand. -/
def Operand.ofChars? : List Char → Option Operand
  | ['I'] => some index
  | ['[', 'I', ']'] => some memory
  | ['D', 'T'] => some delay
  | ['S', 'T'] => some sound
  | ['K'] => some key
  | ['F'] => some glyph
  | ['B'] => some decimal
  | ['V', digit] => (Text.digitValue? .sixteen digit).map fun n => register (Nibble.ofNat n)
  | '0' :: 'x' :: digits =>
    (Text.magnitude? .sixteen ('0' :: 'x' :: digits)).bind (ofWidth? digits.length)
  | cs => (Text.magnitude? .ten cs).map fun n => rows (Nibble.ofNat n)

/-- A line of assembly. -/
structure Statement where
  name : String
  operands : List Operand := []
deriving DecidableEq, Repr

namespace Statement

/-- How a line is written: commas stand between the operands, and a blank behind the name. -/
def text (s : Statement) : String :=
  match s.operands with
  | [] => s.name
  | operands => s.name ++ " " ++ String.intercalate ", " (operands.map Operand.text)

/-- The name and the operands of a line. -/
def fields (line : String) : List (List Char) :=
  (line.toList.filter (· ≠ ',')).splitOn ' '

/-- Reads a line. -/
def ofText? (line : String) : Option Statement :=
  match fields line with
  | [] => none
  | name :: operands =>
    (operands.mapM Operand.ofChars?).map fun operands => { name := String.ofList name, operands }

/-- The instruction that a line stands for. -/
def instruction? (s : Statement) : Option Instruction :=
  match s.operands with
  | [] =>
    match s.name with
    | "CLS" => some .clear
    | "RET" => some .ret
    | _ => none
  | [.address a] =>
    match s.name with
    | "JP" => some (.jump a)
    | "CALL" => some (.call a)
    | _ => none
  | [.word w] => if s.name = "DW" then some (.undefined w) else none
  | [.register x] =>
    match s.name with
    | "SKP" => some (.skipKey x)
    | "SKNP" => some (.skipNoKey x)
    | _ => none
  | [.register x, .byte b] =>
    match s.name with
    | "SE" => some (.skipEqByte x b)
    | "SNE" => some (.skipNeByte x b)
    | "LD" => some (.loadByte x b)
    | "ADD" => some (.addByte x b)
    | "RND" => some (.random x b)
    | _ => none
  | [.register x, .register y] =>
    match s.name with
    | "SE" => some (.skipEq x y)
    | "SNE" => some (.skipNe x y)
    | "LD" => some (.alu .copy x y)
    | "OR" => some (.alu .or x y)
    | "AND" => some (.alu .and x y)
    | "XOR" => some (.alu .xor x y)
    | "ADD" => some (.alu .add x y)
    | "SUB" => some (.alu .sub x y)
    | "SHR" => some (.alu .shiftRight x y)
    | "SUBN" => some (.alu .subFrom x y)
    | "SHL" => some (.alu .shiftLeft x y)
    | _ => none
  | [.register x, .register y, .rows n] => if s.name = "DRW" then some (.draw x y n) else none
  | [.register x, .address a] =>
    if s.name = "JP" ∧ x = 0 then some (.jumpPlus a) else none
  | [.index, .register x] => if s.name = "ADD" then some (.addIndex x) else none
  | [target, source] =>
    if s.name = "LD" then
      match target, source with
      | .index, .address a => some (.loadIndex a)
      | .register x, .delay => some (.readDelay x)
      | .register x, .key => some (.waitKey x)
      | .register x, .memory => some (.load x)
      | .delay, .register x => some (.setDelay x)
      | .sound, .register x => some (.setSound x)
      | .glyph, .register x => some (.glyph x)
      | .decimal, .register x => some (.decimal x)
      | .memory, .register x => some (.store x)
      | _, _ => none
    else none
  | _ => none

end Statement

/-- The line of an instruction. -/
def statement : Instruction → Statement
  | .clear => { name := "CLS" }
  | .ret => { name := "RET" }
  | .jump a => { name := "JP", operands := [.address a] }
  | .call a => { name := "CALL", operands := [.address a] }
  | .skipEqByte x b => { name := "SE", operands := [.register x, .byte b] }
  | .skipNeByte x b => { name := "SNE", operands := [.register x, .byte b] }
  | .skipEq x y => { name := "SE", operands := [.register x, .register y] }
  | .skipNe x y => { name := "SNE", operands := [.register x, .register y] }
  | .loadByte x b => { name := "LD", operands := [.register x, .byte b] }
  | .addByte x b => { name := "ADD", operands := [.register x, .byte b] }
  | .alu op x y => { name := Instruction.aluText op, operands := [.register x, .register y] }
  | .loadIndex a => { name := "LD", operands := [.index, .address a] }
  | .jumpPlus a => { name := "JP", operands := [.register 0, .address a] }
  | .random x mask => { name := "RND", operands := [.register x, .byte mask] }
  | .draw x y n => { name := "DRW", operands := [.register x, .register y, .rows n] }
  | .skipKey x => { name := "SKP", operands := [.register x] }
  | .skipNoKey x => { name := "SKNP", operands := [.register x] }
  | .readDelay x => { name := "LD", operands := [.register x, .delay] }
  | .waitKey x => { name := "LD", operands := [.register x, .key] }
  | .setDelay x => { name := "LD", operands := [.delay, .register x] }
  | .setSound x => { name := "LD", operands := [.sound, .register x] }
  | .addIndex x => { name := "ADD", operands := [.index, .register x] }
  | .glyph x => { name := "LD", operands := [.glyph, .register x] }
  | .decimal x => { name := "LD", operands := [.decimal, .register x] }
  | .store x => { name := "LD", operands := [.memory, .register x] }
  | .load x => { name := "LD", operands := [.register x, .memory] }
  | .undefined w => { name := "DW", operands := [.word w] }

/-- The word that a line of assembly stands for. -/
def assemble? (line : String) : Option Word := do
  let s ← Statement.ofText? line
  let i ← s.instruction?
  return i.toWord

/-! ## Operands read back -/

/-- A register is written as one digit behind its letter. -/
private theorem toList_registerName (r : Register) :
    (Instruction.registerName r).toList = ['V', Text.hexDigit r.val] := by
  have hfield : Text.hexField 1 r.val = [Text.hexDigit r.val] := by
    change List.leftpad 1 '0' (Text.hexDigits r.val) = _
    rw [Text.hexDigits_of_lt r.isLt]
    rfl
  simp [Instruction.registerName, hfield]

/-- The characters of a numeral. -/
private theorem toList_numeral (width n : Nat) :
    ("0x" ++ Text.hex width n).toList = '0' :: 'x' :: Text.hexField width n := by
  simp

/-- A numeral is read as the number in its field. -/
private theorem Operand.ofChars?_numeral (width : Nat) {n : Nat} (hwidth : 0 < width)
    (h : n < 16 ^ width) :
    ofChars? ("0x" ++ Text.hex width n).toList = ofWidth? width n := by
  rw [toList_numeral, ofChars?, (Text.spells_hexField width n).magnitude?, Option.bind_some,
    Text.length_hexField hwidth h]

/-- An operand is read back. -/
theorem Operand.ofChars?_text (o : Operand) : ofChars? o.text.toList = some o := by
  -- A numeral tells its kind by its width; the few operands without a numeral are read at sight.
  cases o with
  | register r =>
    have hr : Nibble.ofNat r.val = r := Fin.ext (Nat.mod_eq_of_lt r.isLt)
    simp only [text, toList_registerName, ofChars?, Text.digitValue?_hexDigit r.isLt,
      Option.map_some, hr]
  | byte b =>
    refine (ofChars?_numeral 2 (by decide) b.toNat_lt).trans ?_
    rw [ofWidth?, UInt8.ofNat_toNat]
  | address a =>
    refine (ofChars?_numeral 3 (by decide) a.isLt).trans ?_
    rw [ofWidth?, Address.ofInt_val]
  | word w =>
    refine (ofChars?_numeral 4 (by decide) w.toNat_lt).trans ?_
    rw [ofWidth?, Word.ofNat_toNat]
  | rows n =>
    have all : ∀ n : Nibble, ofChars? (rows n).text.toList = some (rows n) := by decide
    exact all n
  | _ => rfl

/-- A character that is no part of a numeral does not occur in one. -/
private theorem not_mem_numeral {c : Char} (hc : Text.digitValue? .sixteen c = none) (hx : c ≠ 'x')
    (width n : Nat) : c ∉ ("0x" ++ Text.hex width n).toList := by
  -- A numeral begins with a zero and a mark, and the rest of it are digits.
  have hzero : c ≠ '0' := by
    rintro rfl
    exact absurd hc (by decide)
  rw [toList_numeral, List.mem_cons, List.mem_cons]
  rintro (h | h | h)
  · exact hzero h
  · exact hx h
  · exact (Text.spells_hexField width n).not_mem hc h

/-- An operand is written without blanks and commas. -/
private theorem Operand.not_mem_text (o : Operand) {c : Char} (hc : c = ' ' ∨ c = ',') :
    c ∉ o.text.toList := by
  have hnone : Text.digitValue? .sixteen c = none := by
    rcases hc with rfl | rfl <;> decide
  have hx : c ≠ 'x' := by
    rcases hc with rfl | rfl <;> decide
  cases o with
  | register r =>
    have all : ∀ r : Register, ' ' ∉ ['V', Text.hexDigit r.val] ∧
      ',' ∉ ['V', Text.hexDigit r.val] := by decide
    rw [text, toList_registerName]
    rcases hc with rfl | rfl
    · exact (all r).1
    · exact (all r).2
  | byte b => exact not_mem_numeral hnone hx 2 b.toNat
  | address a => exact not_mem_numeral hnone hx 3 a.val
  | word w => exact not_mem_numeral hnone hx 4 w.toNat
  | rows n =>
    have all : ∀ n : Nibble, ' ' ∉ (rows n).text.toList ∧ ',' ∉ (rows n).text.toList := by decide
    rcases hc with rfl | rfl
    · exact (all n).1
    · exact (all n).2
  | _ => rcases hc with rfl | rfl <;> decide

/-! ## Lines read back -/

/-- Without the commas, a list of operands is a list of words. -/
private theorem filter_intercalate {pieces : List (List Char)} (h : ∀ piece ∈ pieces, ',' ∉ piece) :
    ([',', ' '].intercalate pieces).filter (· ≠ ',') = [' '].intercalate pieces := by
  -- No piece holds a comma, so that only those between the pieces are left out.
  have hkeep : ∀ {piece : List Char}, ',' ∉ piece → piece.filter (· ≠ ',') = piece := by
    intro piece hpiece
    rw [List.filter_eq_self]
    intro c hc
    rw [decide_eq_true_eq]
    rintro rfl
    exact hpiece hc
  induction pieces with
  | nil => rfl
  | cons first rest ih =>
    have hfirst := hkeep (h first List.mem_cons_self)
    cases rest with
    | nil => simpa using hfirst
    | cons second rest =>
      have hrest := ih fun piece hpiece => h piece (List.mem_cons_of_mem _ hpiece)
      rw [List.intercalate_cons_cons, List.intercalate_cons_cons, List.filter_append,
        List.filter_append, hfirst, hrest]
      rfl

namespace Statement

/-- A name without blanks and commas, so that it is one word of its line. -/
def Plain (s : Statement) : Prop :=
  ' ' ∉ s.name.toList ∧ ',' ∉ s.name.toList

/-- The words of a line are the name and the operands. -/
private theorem fields_text {s : Statement} (h : s.Plain) :
    fields s.text = s.name.toList :: s.operands.map fun o => o.text.toList := by
  obtain ⟨name, operands⟩ := s
  obtain ⟨hblank, hcomma⟩ := h
  have hpieces : ∀ piece ∈ operands.map (fun o => o.text.toList), ' ' ∉ piece ∧ ',' ∉ piece := by
    intro piece hpiece
    obtain ⟨o, -, rfl⟩ := List.mem_map.1 hpiece
    exact ⟨o.not_mem_text (.inl rfl), o.not_mem_text (.inr rfl)⟩
  have hname : name.toList.filter (· ≠ ',') = name.toList := by
    have hone : ∀ piece ∈ [name.toList], ',' ∉ piece := by simpa using hcomma
    simpa using filter_intercalate hone
  -- A line is its name and, behind a blank, its operands between commas.
  have hline : (text ⟨name, operands⟩).toList.filter (· ≠ ',') =
      [' '].intercalate (name.toList :: operands.map fun o => o.text.toList) := by
    cases operands with
    | nil => simpa [text] using hname
    | cons first rest =>
      have hoperands := filter_intercalate fun piece hpiece => (hpieces piece hpiece).2
      have hchars : (text ⟨name, first :: rest⟩).toList = name.toList ++ [' '] ++
          [',', ' '].intercalate ((first :: rest).map fun o => o.text.toList) := by
        simp [text, Function.comp_def]
      rw [hchars, List.filter_append, List.filter_append, hname, hoperands]
      exact (List.intercalate_cons_of_ne_nil (by simp)).symm
  rw [fields, hline]
  refine List.splitOn_intercalate ' ' ?_ (List.cons_ne_nil _ _)
  intro piece hpiece
  rcases List.mem_cons.1 hpiece with rfl | hpiece
  · exact hblank
  · exact (hpieces piece hpiece).1

/-- A line is read back. -/
theorem ofText?_text {s : Statement} (h : s.Plain) : ofText? s.text = some s := by
  -- Each operand is read back on its own.
  have hoperands : (s.operands.map fun o => o.text.toList).mapM Operand.ofChars? =
      some s.operands := by
    induction s.operands with
    | nil => rfl
    | cons o rest ih =>
      rw [List.map_cons, List.mapM_cons, o.ofChars?_text, ih]
      rfl
  simp only [ofText?, fields_text h, hoperands, Option.map_some, String.ofList_toList]

end Statement

/-! ## Instructions read back -/

/-- The line of an instruction is its text. -/
theorem text_statement (i : Instruction) : (statement i).text = i.text := by
  -- Texts are compared character by character, since the two sides put them together
  -- differently.
  apply String.toList_inj.1
  cases i with
  | jumpPlus a =>
    have hfirst : Text.hexDigit 0 = '0' := by decide
    simp [statement, Statement.text, Operand.text, Instruction.text, toList_registerName, hfirst]
  | draw x y n =>
    have hcomma : (toString ", ").toList = [',', ' '] := rfl
    simp [statement, Statement.text, Operand.text, Instruction.text, Instruction.registerForm,
      hcomma]
  | _ =>
    simp [statement, Statement.text, Operand.text, Instruction.text, Instruction.byteForm,
      Instruction.registerForm]

/-- The instruction of that line is the instruction. -/
theorem instruction?_statement (i : Instruction) : (statement i).instruction? = some i := by
  cases i with
  | alu op x y => cases op <;> rfl
  | _ => rfl

/-- The names of instructions are plain. -/
private theorem plain_statement (i : Instruction) : (statement i).Plain := by
  cases i with
  | alu op x y => cases op <;> simp [statement, Statement.Plain, Instruction.aluText]
  | _ => simp [statement, Statement.Plain]

/-- The assembler inverts the disassembler. -/
theorem assemble?_text (i : Instruction) : assemble? i.text = some i.toWord := by
  rw [← text_statement]
  simp only [assemble?, Statement.ofText?_text (plain_statement i), Option.bind_eq_bind,
    Option.bind_some, instruction?_statement]
  rfl

end Assembly

/-! ## Programs -/

namespace Word

/-- The bytes of a word, the high one first. -/
def bytes (w : Word) : List UInt8 :=
  [w.highByte, w.byte]

/-- A word made of two bytes has these bytes. -/
private theorem bytes_ofBytes (high low : UInt8) : (ofBytes high low).bytes = [high, low] := by
  -- Each half of a word is a byte, and taking the halves apart undoes the shift by 256.
  have hhigh := high.toNat_lt
  have hlow := low.toNat_lt
  have hfirst : (ofBytes high low).highByte = high := by
    apply UInt8.toNat_inj.1
    simp only [highByte, ofBytes, ofNat, Nibble.val_ofNat, UInt8.toNat_ofNat']
    omega
  have hsecond : (ofBytes high low).byte = low := by
    apply UInt8.toNat_inj.1
    simp only [byte, kk, ofBytes, ofNat, Nibble.val_ofNat, UInt8.toNat_ofNat']
    omega
  rw [bytes, hfirst, hsecond]

end Word

namespace Listing

/-- A listing has a line for every two bytes. -/
private theorem length_ofProgram (base : Int) (program : List UInt8) :
    (ofProgram base program).length = (program.length + 1) / 2 := by
  induction base, program using ofProgram.induct with
  | case1 base => rfl
  | case2 base high => simp only [ofProgram, List.length_singleton]
  | case3 base high low rest ih =>
    simp only [ofProgram, List.length_cons, ih]
    omega

/-- The lines of a listing are two addresses apart, and none is current. -/
theorem getElem?_ofProgram {base : Int} {program : List UInt8} {i : Nat} {line : Line}
    (h : (ofProgram base program)[i]? = some line) :
    line.address = base + 2 * i ∧ line.current = false := by
  -- Induction along the program, two bytes at a time, as the listing is made.
  induction base, program using ofProgram.induct generalizing i with
  | case1 base => cases h
  | case2 base high =>
    cases i with
    | zero =>
      cases h
      exact ⟨(Int.add_zero base).symm, rfl⟩
    | succ i => cases h
  | case3 base high low rest ih =>
    cases i with
    | zero =>
      cases h
      exact ⟨(Int.add_zero base).symm, rfl⟩
    | succ i =>
      obtain ⟨haddress, hcurrent⟩ := ih h
      refine ⟨?_, hcurrent⟩
      rw [haddress]
      omega

/-- The words of a listing are the bytes of the program, with a zero behind an odd last one. -/
theorem flatMap_bytes_ofProgram (base : Int) (program : List UInt8) :
    (ofProgram base program).flatMap (fun line => line.word.bytes) =
      program ++ List.replicate (program.length % 2) 0 := by
  induction base, program using ofProgram.induct with
  | case1 base => rfl
  | case2 base high =>
    simp only [ofProgram, List.flatMap_cons, List.flatMap_nil, Word.bytes_ofBytes]
    rfl
  -- Two bytes more do not change whether the number of bytes is odd.
  | case3 base high low rest ih =>
    have hparity : (rest.length + 1 + 1) % 2 = rest.length % 2 := by omega
    simp only [ofProgram, List.flatMap_cons, ih, Word.bytes_ofBytes, List.length_cons, hparity]
    rfl

/-- The words of a listing are read back from its texts. -/
private theorem mapM_assemble?_text (lines : List Line) :
    (lines.map Line.text).mapM Assembly.assemble? = some (lines.map Line.word) := by
  induction lines with
  | nil => rfl
  | cons line rest ih =>
    rw [List.map_cons, List.mapM_cons, ih, Line.text, Assembly.assemble?_text,
      Instruction.toWord_ofWord]
    rfl

/-- A listing loses nothing. Every word is assembled again from its text, an undefined one too. A
    listing has a line for every two bytes, and for the last byte of an odd program; the lines are
    two addresses apart from the base on, and none is current; and their words are the bytes of
    the program, with a zero behind an odd last byte. So programs of one length whose listings show
    the same texts, wherever they are said to begin, are the same. -/
theorem ofProgram_lossless (base : Int) (program : List UInt8) :
    let lines := ofProgram base program
    (∀ w : Word, Assembly.assemble? (Instruction.ofWord w).text = some w) ∧
    lines.length = (program.length + 1) / 2 ∧
    (∀ (i : Nat) line, lines[i]? = some line → line.address = base + 2 * i ∧ line.current = false) ∧
    lines.flatMap (fun line => line.word.bytes) =
      program ++ (if program.length % 2 = 1 then [0] else []) ∧
    ∀ (otherBase : Int) (other : List UInt8), other.length = program.length →
      (ofProgram otherBase other).map Line.text = lines.map Line.text → other = program := by
  intro lines
  refine ⟨fun w => ?_, length_ofProgram base program, fun i line => getElem?_ofProgram, ?_, ?_⟩
  · rw [Assembly.assemble?_text, Instruction.toWord_ofWord]
  · rw [flatMap_bytes_ofProgram]
    obtain hparity | hparity := Nat.mod_two_eq_zero_or_one program.length
    · rw [hparity, if_neg (by decide)]
      rfl
    · rw [hparity, if_pos rfl]
      rfl
  · intro otherBase other hlength htexts
    -- The texts give the words, and the words the bytes with the same number of zeros behind them.
    have hwords : (ofProgram otherBase other).map Line.word =
        (ofProgram base program).map Line.word := by
      apply Option.some.inj
      rw [← mapM_assemble?_text, ← mapM_assemble?_text, htexts]
    have hbytes := congrArg (List.flatMap Word.bytes) hwords
    rw [List.flatMap_map, List.flatMap_map, flatMap_bytes_ofProgram, flatMap_bytes_ofProgram,
      hlength] at hbytes
    exact List.append_cancel_right hbytes

/-- Lines whose name alone does not say how they are assembled. -/
example : ["JP 0x228", "JP V0, 0x300", "DRW V0, VF, 15", "DW 0x0700"].map Assembly.assemble? =
    [0x1228, 0xB300, 0xD0FF, 0x0700].map fun value => some (Word.ofNat value) := by
  decide +kernel

end Listing

end Chip8
