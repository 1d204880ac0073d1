import Chip8.Proofs.NumeralGrammar
import Chip8.Text.Hex
import Mathlib.Algebra.GroupWithZero.Nat

/-!
# Numerals read back

A number that is written in hexadecimal digits, brought to any width by zeros and put behind the
mark `0x`, is read back as that number. The digits may be of either case and the mark may be left
out; an integer has a minus sign in front if it is negative.

## Key results

- `Text.Spells`: characters that are the digits of a number
- `Text.Spells.digitRun`, `Text.Spells.magnitude?`: what is spelled is a run of digits, and read
- `Text.spells_hexDigits`, `Text.spells_hexField`: the digits of a number and of a field spell it
- `Text.WritesHex`, `Text.WritesHex.integer?`: the spellings of an integer are read as the integer
-/

namespace Chip8.Text

-- Zero is the numeral here, and not that of an algebraic structure.
attribute [local instance (1100)] Zero.ofOfNat0

/-- The characters are digits, at least one, and the number that they stand for is `n`. -/
def Spells (base : Base) (cs : List Char) (n : Nat) : Prop :=
  cs ≠ [] ∧ ∃ values, cs.map (digitValue? base) = values.map some ∧
    ofDigits base.radix values = n

variable {base : Base} {cs : List Char} {n : Nat}

/-! ## Runs of digits -/

/-- The value of a digit is read off the digit. -/
theorem digitValue?_hexDigit {d : Nat} (h : d < 16) :
    digitValue? .sixteen (hexDigit d) = some d := by
  have all : ∀ d : Fin 16, digitValue? .sixteen (hexDigit d.val) = some d.val := by decide
  exact all ⟨d, h⟩

/-- Each of the characters has a value. -/
private theorem Spells.exists_digitValue?_eq_some (h : Spells base cs n) {c : Char} (hc : c ∈ cs) :
    ∃ value, digitValue? base c = some value := by
  obtain ⟨-, values, hvalues, -⟩ := h
  have hmem : digitValue? base c ∈ values.map some := hvalues ▸ List.mem_map_of_mem hc
  obtain ⟨value, -, hvalue⟩ := List.mem_map.1 hmem
  exact ⟨value, hvalue.symm⟩

/-- Whatever has no value is none of the digits. -/
theorem Spells.not_mem (h : Spells base cs n) {c : Char} (hc : digitValue? base c = none) :
    c ∉ cs := by
  intro hmem
  obtain ⟨value, hvalue⟩ := h.exists_digitValue?_eq_some hmem
  cases hc.symm.trans hvalue

/-- Characters that are all digits are a run of digits with nothing between them. -/
private theorem digitRun_of_map_eq {values : List Nat} (hne : cs ≠ [])
    (h : cs.map (digitValue? base) = values.map some) : DigitRun base values cs := by
  -- Induction on the characters; each stands for one step of the run.
  induction cs generalizing values with
  | nil => exact absurd rfl hne
  | cons c rest ih =>
    obtain _ | ⟨value, values⟩ := values
    · exact nomatch h
    obtain ⟨hc, hrest⟩ := List.cons.inj h
    cases rest with
    | nil =>
      obtain rfl := List.map_eq_nil_iff.1 hrest.symm
      exact .last hc
    | cons d rest => exact .next hc (ih (List.cons_ne_nil d rest) hrest)

/-- What spells a number is a run of digits with the number's value. -/
theorem Spells.digitRun (h : Spells base cs n) :
    ∃ values, DigitRun base values cs ∧ ofDigits base.radix values = n := by
  obtain ⟨hne, values, hvalues, hn⟩ := h
  exact ⟨values, digitRun_of_map_eq hne hvalues, hn⟩

/-! ## Marks -/

/-- What may stand in front of the digits in base sixteen. -/
def marks : List (List Char) :=
  [[], ['0', 'x'], ['0', 'X']]

variable {mark : List Char}

/-- The marks are marks in the grammar of numerals. -/
private theorem isMark_of_mem_marks (h : mark ∈ marks) : IsMark mark := by
  have hzero : decimalValue? '0' = some 0 := by decide
  simp only [marks, List.mem_cons, List.not_mem_nil, or_false] at h
  obtain rfl | rfl | rfl := h
  · exact .none
  · exact .plain hzero (.inl rfl)
  · exact .plain hzero (.inr rfl)

/-- Digits behind the mark of base sixteen are read as the number that they spell. -/
theorem Spells.magnitude? (h : Spells .sixteen cs n) :
    magnitude? .sixteen ('0' :: 'x' :: cs) = some n := by
  obtain ⟨values, hrun, hn⟩ := h.digitRun
  exact magnitude?_eq_some_iff.2
    ⟨['0', 'x'], cs, values, rfl, isMark_of_mem_marks (by decide), hrun, hn⟩

/-! ## Digits of a number -/

/-- The hexadecimal digits of a number spell it. -/
theorem spells_hexDigits (n : Nat) : Spells .sixteen (hexDigits n) n := by
  -- Induction on the number without its last digit.
  induction n using Nat.strongRecOn with
  | ind n ih =>
    by_cases h : n < 16
    · rw [hexDigits_of_lt h]
      refine ⟨List.cons_ne_nil _ _, [n], ?_, ?_⟩
      · rw [List.map_singleton, digitValue?_hexDigit h]
        rfl
      · simp only [ofDigits, List.foldl_cons, List.foldl_nil]
        omega
    · obtain ⟨-, values, hvalues, hn⟩ := ih (n / 16) (by omega)
      have hlast : n % 16 < 16 := by omega
      rw [hexDigits_of_le (by omega)]
      refine ⟨List.append_ne_nil_of_right_ne_nil _ (List.cons_ne_nil _ _), values ++ [n % 16],
        ?_, ?_⟩
      · rw [List.map_append, List.map_append, hvalues, List.map_singleton,
          digitValue?_hexDigit hlast]
        rfl
      · rw [ofDigits_append_singleton, hn, Base.radix]
        omega

/-- A zero in front changes nothing. -/
private theorem Spells.zero_cons (h : Spells base cs n) : Spells base ('0' :: cs) n := by
  obtain ⟨-, values, hvalues, hn⟩ := h
  have hzero : digitValue? base '0' = some 0 := by cases base <;> decide
  refine ⟨List.cons_ne_nil _ _, 0 :: values, ?_, ?_⟩
  · rw [List.map_cons, hzero, hvalues]
    rfl
  · simp only [ofDigits, List.foldl_cons, Nat.zero_mul] at hn ⊢
    exact hn

/-- So do any number of zeros. -/
private theorem Spells.replicate_zero_append (h : Spells base cs n) (zeros : Nat) :
    Spells base (List.replicate zeros '0' ++ cs) n := by
  induction zeros with
  | zero => exact h
  | succ zeros ih => exact ih.zero_cons

/-- A field spells its number, however many zeros it takes to reach the width. -/
theorem spells_hexField (width n : Nat) : Spells .sixteen (hexField width n) n :=
  (spells_hexDigits n).replicate_zero_append _

/-! ## Widths -/

/-- A number of at most `width` digits has at most `width` digits, and at least one. -/
private theorem length_hexDigits_le {width : Nat} (hwidth : 0 < width) (h : n < 16 ^ width) :
    (hexDigits n).length ≤ width := by
  -- Induction on the width: one digit less is a number sixteen times smaller.
  induction width generalizing n with
  | zero => exact absurd hwidth (Nat.lt_irrefl 0)
  | succ width ih =>
    by_cases hn : n < 16
    · rw [hexDigits_of_lt hn, List.length_singleton]
      omega
    · rw [hexDigits_of_le (by omega), List.length_append, List.length_singleton]
      have hpos : 0 < width := by
        apply Nat.pos_of_ne_zero
        rintro rfl
        exact hn h
      have hdiv : n / 16 < 16 ^ width := Nat.div_lt_of_lt_mul (by rwa [Nat.pow_succ'] at h)
      exact Nat.succ_le_succ (ih hpos hdiv)

/-- A field that the number fits into has its width. -/
theorem length_hexField {width : Nat} (hwidth : 0 < width) (h : n < 16 ^ width) :
    (hexField width n).length = width := by
  change (List.leftpad width '0' (hexDigits n)).length = width
  rw [List.length_leftpad, Nat.max_eq_left (length_hexDigits_le hwidth h)]

/-! ## Digits of either case -/

/-- The characters of a number are the sixteen digits. -/
theorem exists_hexDigit_of_mem {c : Char} (h : c ∈ hexDigits n) : ∃ d : Fin 16, c = hexDigit d := by
  -- Induction on the number without its last digit.
  induction n using Nat.strongRecOn with
  | ind n ih =>
    by_cases hn : n < 16
    · rw [hexDigits_of_lt hn, List.mem_singleton] at h
      exact ⟨⟨n, hn⟩, h⟩
    · rw [hexDigits_of_le (by omega), List.mem_append, List.mem_singleton] at h
      obtain hfront | hlast := h
      · exact ih (n / 16) (by omega) hfront
      · exact ⟨⟨n % 16, Nat.mod_lt n (by decide)⟩, hlast⟩

/-- What is a digit in upper case is this digit, in upper or in lower case. -/
theorem eq_hexDigit_or_toLower {c : Char} {d : Fin 16} (h : c.toUpper = hexDigit d) :
    c = hexDigit d ∨ c = (hexDigit d).toLower := by
  by_cases hc : 'a'.toNat ≤ c.toNat ∧ c.toNat ≤ 'z'.toNat
  · have letters : ∀ i : Fin 26, ∀ d : Fin 16, (Char.ofNat ('a'.toNat + i)).toUpper = hexDigit d →
        Char.ofNat ('a'.toNat + i) = (hexDigit d).toLower := by decide +kernel
    have hletter : Char.ofNat ('a'.toNat + (c.toNat - 'a'.toNat)) = c := by
      rw [Nat.add_sub_cancel' hc.1, Char.ofNat_toNat]
    have hplace : c.toNat - 'a'.toNat < 26 := by
      have hlast : 'z'.toNat = 'a'.toNat + 25 := rfl
      omega
    have hlower := letters ⟨c.toNat - 'a'.toNat, hplace⟩ d
    simp only [hletter] at hlower
    exact .inr (hlower h)
  · have hsame : c.toUpper = c := dif_neg hc
    exact .inl (hsame.symm.trans h)

/-- The case of a digit makes no difference to its value. -/
theorem digitValue?_toUpper {c : Char} (h : c.toUpper ∈ hexDigits n) :
    digitValue? .sixteen c = digitValue? .sixteen c.toUpper := by
  obtain ⟨d, hd⟩ := exists_hexDigit_of_mem h
  have lower : ∀ d : Fin 16,
      digitValue? .sixteen (hexDigit d).toLower = digitValue? .sixteen (hexDigit d) := by decide
  rw [hd]
  obtain rfl | rfl := eq_hexDigit_or_toLower hd
  · rfl
  · exact lower d

/-- Digits spell their number in either case. -/
private theorem spells_of_toUpper {digits : List Char} (h : digits.map Char.toUpper = hexDigits n) :
    Spells .sixteen digits n := by
  obtain ⟨hne, values, hvalues, hn⟩ := spells_hexDigits n
  refine ⟨fun hnil => hne ?_, values, ?_, hn⟩
  · rw [← h, hnil, List.map_nil]
  · rw [← hvalues, ← h, List.map_map]
    exact List.map_congr_left fun c hc => digitValue?_toUpper (h ▸ List.mem_map_of_mem hc)

/-! ## Integers -/

/-- Digits behind a mark and a sign are read as the integer that they stand for. -/
private theorem Spells.integer?_signed {sign : List Char} {k : Int} (h : Spells .sixteen cs n)
    (hmark : mark ∈ marks) (hsign : Signed sign n k) :
    Text.integer? .sixteen (String.ofList (sign ++ (mark ++ cs))) = some k := by
  obtain ⟨values, hrun, rfl⟩ := h.digitRun
  refine integer?_eq_some_iff.2 ⟨sign, values, ⟨[], mark, cs, [], ?_, ?_, ?_, hrun⟩, hsign⟩
  · rw [String.toList_ofList, List.nil_append, List.append_nil]
  · exact fun c hc => absurd hc List.not_mem_nil
  · exact isMark_of_mem_marks hmark

/-- Digits without a sign are read as a number. -/
theorem Spells.integer? (h : Spells .sixteen cs n) (hmark : mark ∈ marks) :
    Text.integer? .sixteen (String.ofList (mark ++ cs)) = some (n : Int) := by
  have hread := h.integer?_signed hmark (.none n)
  rwa [List.nil_append] at hread

/-! ## Spellings of an integer -/

/-- The characters are hexadecimal digits of an integer, in upper or lower case, with zeros in front
    and a mark or without them, and with a minus sign if the integer is negative. -/
def WritesHex (n : Int) (cs : List Char) : Prop :=
  ∃ mark ∈ marks, ∃ zeros digits, digits.map Char.toUpper = hexDigits n.natAbs ∧
    cs = (if n < 0 then ['-'] else []) ++ (mark ++ (List.replicate zeros '0' ++ digits))

/-- Every spelling of an integer is read as the integer. -/
theorem WritesHex.integer? {n : Int} (h : WritesHex n cs) :
    Text.integer? .sixteen (String.ofList cs) = some n := by
  obtain ⟨mark, hmark, zeros, digits, hdigits, rfl⟩ := h
  have hspells := (spells_of_toUpper hdigits).replicate_zero_append zeros
  -- The sign decides between the two cases, and the digits spell the absolute value.
  by_cases hn : n < 0
  · rw [if_pos hn, hspells.integer?_signed hmark (.minus _)]
    exact congrArg some (by omega)
  · rw [if_neg hn, List.nil_append, hspells.integer? hmark]
    exact congrArg some (by omega)

/-- No spelling holds a blank. -/
theorem WritesHex.isBlank_eq_false {n : Int} (h : WritesHex n cs) :
    ∀ c ∈ cs, isBlank c = false := by
  obtain ⟨mark, hmark, zeros, digits, hdigits, rfl⟩ := h
  have hspells := (spells_of_toUpper hdigits).replicate_zero_append zeros
  have hmarks : ∀ mark ∈ marks, ∀ c ∈ mark, isBlank c = false := by
    simp only [marks, List.forall_mem_cons, List.not_mem_nil, false_implies, implies_true, and_true]
    decide
  intro c hc
  -- A character is the sign, in the mark or one of the digits, and none of these is blank.
  obtain hc | hc := List.mem_append.1 hc
  · split at hc
    · obtain rfl := List.mem_singleton.1 hc
      decide
    · cases hc
  · obtain hc | hc := List.mem_append.1 hc
    · exact hmarks mark hmark c hc
    · obtain ⟨value, hvalue⟩ := hspells.exists_digitValue?_eq_some hc
      exact isBlank_eq_false_of_digitValue? hvalue

end Chip8.Text
