import Chip8.Text.Numeral
import Mathlib.Data.List.Basic
import Mathlib.Data.List.Induction
import Mathlib.Data.List.TakeWhile

/-!
# The grammar of numerals

Which texts are integers in base sixteen is a matter of a grammar: blanks, perhaps a sign, perhaps a
mark, a run of digits, blanks. A numeral is described by this form alone, without the order in which
the reader looks at it. The reader reads exactly the numerals, each as the integer that it stands
for. The parts do not get in each other's way: digits, marks and signs are not blank, digits are no
signs, and no run of digits begins like a mark.

## Key results

- `Text.DigitRun`, `Text.digitRun?_eq_some_iff`: runs of digits
- `Text.IsMark`, `Text.magnitude?_eq_some_iff`: numerals without a sign
- `Text.IsNumeral`, `Text.integer?_eq_some_iff`: the texts that are read as an integer
- `Text.ofDigits_eq_iff`: the digits of a number below the radix
-/

namespace Chip8.Text

-- Zero is the numeral here, and not that of an algebraic structure.
attribute [local instance (1100)] Zero.ofOfNat0

variable {base : Base} {cs body mark sign : List Char} {values : List Nat} {text : String}

/-! ## Runs of digits -/

/-- Digits of these values; between two of them an underscore may stand. -/
inductive DigitRun (base : Base) : List Nat → List Char → Prop
  | last {c : Char} {value : Nat} (digit : digitValue? base c = some value) :
    DigitRun base [value] [c]
  | next {c : Char} {value : Nat} {values : List Nat} {rest : List Char}
    (digit : digitValue? base c = some value) (run : DigitRun base values rest) :
    DigitRun base (value :: values) (c :: rest)
  | apart {c : Char} {value : Nat} {values : List Nat} {rest : List Char}
    (digit : digitValue? base c = some value) (run : DigitRun base values rest) :
    DigitRun base (value :: values) (c :: '_' :: rest)

namespace DigitRun

/-- An underscore is no digit. -/
private theorem underscore (base : Base) : digitValue? base '_' = none := by
  cases base <;> decide

/-- A run begins with a digit. -/
theorem exists_cons (h : DigitRun base values cs) :
    ∃ c rest value, cs = c :: rest ∧ digitValue? base c = some value := by
  cases h with
  | last digit => exact ⟨_, _, _, rfl, digit⟩
  | next digit _ => exact ⟨_, _, _, rfl, digit⟩
  | apart digit _ => exact ⟨_, _, _, rfl, digit⟩

/-- A run ends with a digit. -/
private theorem exists_concat (h : DigitRun base values cs) :
    ∃ front c value, cs = front ++ [c] ∧ digitValue? base c = some value := by
  induction h with
  | last digit => exact ⟨[], _, _, rfl, digit⟩
  | @next c _ _ _ _ _ ih =>
    obtain ⟨front, last, value, rfl, digit⟩ := ih
    exact ⟨c :: front, last, value, rfl, digit⟩
  | @apart c _ _ _ _ _ ih =>
    obtain ⟨front, last, value, rfl, digit⟩ := ih
    exact ⟨c :: '_' :: front, last, value, rfl, digit⟩

/-- A run has a digit. -/
theorem ne_nil (h : DigitRun base values cs) : values ≠ [] := by
  cases h <;> exact List.cons_ne_nil _ _

end DigitRun

/-- What is read as a run of digits is one. -/
private theorem digitRun_of_digitRun? (h : digitRun? base cs = some values) :
    DigitRun base values cs := by
  -- The reader takes a digit, or a digit and an underscore, and one case stands for each.
  fun_induction digitRun? base cs generalizing values with
  | case1 => cases h
  | case2 c =>
    obtain ⟨value, digit, rfl⟩ := Option.map_eq_some_iff.1 h
    exact .last digit
  | case3 c rest ih =>
    simp only [Option.bind_eq_bind, Option.bind_eq_some_iff] at h
    obtain ⟨value, digit, values, hrun, heq⟩ := h
    cases heq
    exact .apart digit (ih hrun)
  | case4 c rest _ _ ih =>
    simp only [Option.bind_eq_bind, Option.bind_eq_some_iff] at h
    obtain ⟨value, digit, values, hrun, heq⟩ := h
    cases heq
    exact .next digit (ih hrun)

/-- A run of digits is read as its values. -/
theorem DigitRun.digitRun? (h : DigitRun base values cs) : digitRun? base cs = some values := by
  -- Induction on the run: each way to go on is a line of the reader.
  induction h with
  | last digit => rw [Text.digitRun?, digit]; rfl
  | @next c value values rest digit run ih =>
    obtain ⟨d, others, other, rfl, hd⟩ := run.exists_cons
    -- The next character is a digit, hence no underscore to be skipped.
    have hne : d ≠ '_' := by
      rintro rfl
      cases (underscore base).symm.trans hd
    rw [digitRun?.eq_4 base c (d :: others) (by simp) (by simpa using hne), ih, digit]
    rfl
  | @apart c value values rest digit run ih =>
    rw [digitRun?.eq_3, ih, digit]
    rfl

/-- The runs of digits are what is read as one. -/
theorem digitRun?_eq_some_iff : digitRun? base cs = some values ↔ DigitRun base values cs :=
  ⟨digitRun_of_digitRun?, DigitRun.digitRun?⟩

/-! ## Marks -/

/-- The mark of base sixteen, with or without an underscore behind it, or nothing. -/
inductive IsMark : List Char → Prop
  | none : IsMark []
  | plain {zero letter : Char} (isZero : decimalValue? zero = some 0)
    (isLetter : letter = 'x' ∨ letter = 'X') : IsMark [zero, letter]
  | apart {zero letter : Char} (isZero : decimalValue? zero = some 0)
    (isLetter : letter = 'x' ∨ letter = 'X') : IsMark [zero, letter, '_']

/-- Dropping the mark drops one. -/
private theorem exists_isMark (cs : List Char) :
    ∃ mark, IsMark mark ∧ cs = mark ++ dropMark .sixteen cs := by
  fun_cases dropMark .sixteen cs with
  -- An underscore is dropped with the mark only if something follows it.
  | case1 zero letter rest h hrest =>
    obtain ⟨c, others, rfl⟩ : ∃ c others, rest = c :: others := by
      cases rest with
      | nil => cases hrest
      | cons c others => exact ⟨c, others, rfl⟩
    obtain rfl := Option.some.inj hrest
    exact ⟨_, .apart h.1 h.2, rfl⟩
  | case2 zero letter rest h _ => exact ⟨_, .plain h.1 h.2, rfl⟩
  | case3 zero letter rest h => exact ⟨[], .none, rfl⟩
  | case4 => exact ⟨[], .none, rfl⟩

/-- In front of a run of digits the mark is dropped, and nothing else. -/
private theorem IsMark.dropMark_append (hmark : IsMark mark)
    (hbody : DigitRun .sixteen values body) :
    dropMark .sixteen (mark ++ body) = body := by
  obtain ⟨d, others, value, rfl, hd⟩ := hbody.exists_cons
  have hunderscore : d ≠ '_' := by
    rintro rfl
    cases (DigitRun.underscore .sixteen).symm.trans hd
  -- With a mark the reader drops what the grammar says; without one it must not drop anything.
  cases hmark with
  | plain isZero isLetter =>
    simp [dropMark, isZero, isLetter, hunderscore]
  | apart isZero isLetter =>
    simp [dropMark, isZero, isLetter]
  | none =>
    -- The second character of a run is an underscore or a digit, and no letter of a mark.
    rw [List.nil_append]
    cases others with
    | nil => rfl
    | cons second rest =>
      have hsecond : second = '_' ∨ (digitValue? .sixteen second).isSome = true := by
        cases hbody with
        | next _ run =>
          obtain ⟨c, _, value, heq, hc⟩ := run.exists_cons
          rw [(List.cons.inj heq).1, hc]
          exact .inr rfl
        | apart _ _ => exact .inl rfl
      refine if_neg ?_
      rintro ⟨-, rfl | rfl⟩
      · exact absurd hsecond (by decide)
      · exact absurd hsecond (by decide)

/-- What a mark and digits begin with is a digit as well. -/
theorem IsMark.exists_cons (hmark : IsMark mark) (hbody : DigitRun .sixteen values body) :
    ∃ c rest value, mark ++ body = c :: rest ∧ digitValue? .sixteen c = some value := by
  have hzero {c : Char} (h : decimalValue? c = some 0) : digitValue? .sixteen c = some 0 := by
    simp only [digitValue?, h]
  cases hmark with
  | none => exact hbody.exists_cons
  | plain isZero _ => exact ⟨_, _, 0, rfl, hzero isZero⟩
  | apart isZero _ => exact ⟨_, _, 0, rfl, hzero isZero⟩

/-- The numerals without sign that are read in base sixteen. -/
theorem magnitude?_eq_some_iff {n : Nat} : magnitude? .sixteen cs = some n ↔
    ∃ mark body values, cs = mark ++ body ∧ IsMark mark ∧ DigitRun .sixteen values body ∧
      ofDigits 16 values = n := by
  have hread : magnitude? .sixteen cs =
      (digitRun? .sixteen (dropMark .sixteen cs)).map (ofDigits 16) := by
    rw [magnitude?]
    cases digitRun? .sixteen (dropMark .sixteen cs) with
    | none => rfl
    | some values => rfl
  -- Both sides drop the mark and read the digits; the value is a function of these.
  rw [hread, Option.map_eq_some_iff]
  constructor
  · rintro ⟨values, hrun, hn⟩
    obtain ⟨mark, hmark, hcs⟩ := exists_isMark cs
    exact ⟨mark, _, values, hcs, hmark, digitRun?_eq_some_iff.1 hrun, hn⟩
  · rintro ⟨mark, body, values, rfl, hmark, hrun, hn⟩
    exact ⟨values, by rw [hmark.dropMark_append hrun, hrun.digitRun?], hn⟩

/-! ## Blanks -/

/-- A character between two codes is not blank if no range of blanks reaches in between. -/
private theorem isBlank_eq_false_of_between {c : Char} {first last : Nat}
    (hc : first ≤ c.toNat ∧ c.toNat ≤ last)
    (apart : ∀ range ∈ blankRanges, range.2 < first ∨ last < range.1) : isBlank c = false := by
  refine List.any_eq_false.2 fun range hrange hin => ?_
  have hapart := apart range hrange
  simp only [Bool.and_eq_true, decide_eq_true_eq] at hin
  omega

/-- No digit is blank. -/
theorem isBlank_eq_false_of_digitValue? {c : Char} {value : Nat}
    (h : digitValue? base c = some value) : isBlank c = false := by
  unfold digitValue? at h
  -- Decimal digits are in ranges of ten, and none of these meets a range of blanks.
  split at h
  · next hdecimal =>
    obtain ⟨first, hfound, -⟩ := Option.map_eq_some_iff.1 hdecimal
    have hbounds := List.find?_some hfound
    simp only [Bool.and_eq_true, decide_eq_true_eq] at hbounds
    have apart : ∀ first ∈ zeros, ∀ range ∈ blankRanges,
        range.2 < first ∨ first + 9 < range.1 := by decide +kernel
    exact isBlank_eq_false_of_between (by omega : first ≤ c.toNat ∧ c.toNat ≤ first + 9)
      (apart first (List.mem_of_find?_eq_some hfound))
  -- The letters of base sixteen are between two codes as well.
  · cases base with
    | ten => cases h
    | sixteen =>
      have apart : ∀ range ∈ blankRanges, range.2 < 'A'.toNat ∨ 'f'.toNat < range.1 := by decide
      have hle {a b : Char} (h : a ≤ b) : a.toNat ≤ b.toNat := h
      have hcase : ('a' ≤ c ∧ c ≤ 'f') ∨ ('A' ≤ c ∧ c ≤ 'F') := by
        simp only at h
        split at h
        · exact .inl ‹_›
        · split at h
          · exact .inr ‹_›
          · cases h
      refine isBlank_eq_false_of_between ?_ apart
      obtain ⟨hfirst, hlast⟩ | ⟨hfirst, hlast⟩ := hcase
      · exact ⟨Nat.le_trans (by decide) (hle hfirst), hle hlast⟩
      · exact ⟨hle hfirst, Nat.le_trans (hle hlast) (by decide)⟩

/-- What is trimmed off is blank. -/
private theorem exists_trimNumeral (cs : List Char) : ∃ before after,
    cs = before ++ trimNumeral cs ++ after ∧ ∀ c ∈ before ++ after, surroundsNumeral c = true := by
  refine ⟨cs.takeWhile surroundsNumeral,
    ((cs.dropWhile surroundsNumeral).reverse.takeWhile surroundsNumeral).reverse, ?_, ?_⟩
  · rw [trimNumeral, List.append_assoc, ← List.reverse_append, List.takeWhile_append_dropWhile,
      List.reverse_reverse, List.takeWhile_append_dropWhile]
  · intro c hc
    obtain hc | hc := List.mem_append.1 hc
    · exact List.mem_takeWhile_imp hc
    · exact List.mem_takeWhile_imp (List.mem_reverse.1 hc)

/-- What is neither blank at its beginning nor at its end is left when the blanks around it are
    trimmed off. -/
private theorem trimNumeral_surrounded {before core after front rest : List Char}
    {first last : Char}
    (h : ∀ c ∈ before ++ after, surroundsNumeral c = true) (hfirst : core = first :: rest)
    (hlast : core = front ++ [last]) (hends : surroundsNumeral first = false ∧
      surroundsNumeral last = false) : trimNumeral (before ++ core ++ after) = core := by
  -- Trimming stops at the first character and, from the other end, at the last.
  have hbefore : ∀ c ∈ before, surroundsNumeral c = true :=
    fun c hc => h c (List.mem_append_left _ hc)
  have hafter : ∀ c ∈ after.reverse, surroundsNumeral c = true :=
    fun c hc => h c (List.mem_append_right _ (List.mem_reverse.1 hc))
  have hleft : (before ++ (core ++ after)).dropWhile surroundsNumeral = core ++ after := by
    rw [List.dropWhile_append_of_pos hbefore, hfirst, List.cons_append,
      List.dropWhile_cons_of_neg (by simp [hends.1])]
  have hright : (after.reverse ++ core.reverse).dropWhile surroundsNumeral = core.reverse := by
    rw [List.dropWhile_append_of_pos hafter, hlast, List.reverse_append, List.reverse_singleton,
      List.singleton_append, List.dropWhile_cons_of_neg (by simp [hends.2])]
  rw [trimNumeral, List.append_assoc, hleft, List.reverse_append, hright, List.reverse_reverse]

/-- Around a numeral only blanks are trimmed. -/
private theorem surroundsNumeral_eq_false {c : Char} (h : isBlank c = false) :
    surroundsNumeral c = false := by
  rw [surroundsNumeral, h, Bool.false_and]

/-! ## Numerals -/

/-- A sign in front of a number, and the integer that the two stand for. -/
inductive Signed : List Char → Nat → Int → Prop
  | none (n : Nat) : Signed [] n n
  | plus (n : Nat) : Signed ['+'] n n
  | minus (n : Nat) : Signed ['-'] n (-n)

/-- The text is a numeral in base sixteen: a sign, a mark and digits of these values, with blanks
    around them. -/
def IsNumeral (text : String) (sign : List Char) (values : List Nat) : Prop :=
  ∃ before mark body after, text.toList = before ++ (sign ++ (mark ++ body)) ++ after ∧
    (∀ c ∈ before ++ after, surroundsNumeral c = true) ∧ IsMark mark ∧
    DigitRun .sixteen values body

/-- A sign and digits are not trimmed. -/
private theorem trimNumeral_signed {before after : List Char} {n : Nat} {k : Int}
    (h : ∀ c ∈ before ++ after, surroundsNumeral c = true) (hsign : Signed sign n k)
    (hmark : IsMark mark) (hbody : DigitRun .sixteen values body) :
    trimNumeral (before ++ (sign ++ (mark ++ body)) ++ after) = sign ++ (mark ++ body) := by
  obtain ⟨c, rest, value, hfirst, hc⟩ := hmark.exists_cons hbody
  obtain ⟨front, d, value', hlast, hd⟩ := hbody.exists_concat
  have hdigit {c : Char} {value : Nat} (h : digitValue? .sixteen c = some value) :
      surroundsNumeral c = false := surroundsNumeral_eq_false (isBlank_eq_false_of_digitValue? h)
  -- The core begins with its sign or its first digit, and ends with its last digit.
  obtain ⟨first, others, hcore, hblank⟩ : ∃ first others,
      sign ++ (mark ++ body) = first :: others ∧ surroundsNumeral first = false := by
    cases hsign with
    | none => exact ⟨c, rest, hfirst, hdigit hc⟩
    | plus => exact ⟨_, _, rfl, by decide⟩
    | minus => exact ⟨_, _, rfl, by decide⟩
  have hend : sign ++ (mark ++ body) = sign ++ (mark ++ front) ++ [d] := by
    rw [hlast, List.append_assoc, List.append_assoc]
  exact trimNumeral_surrounded h hcore hend ⟨hblank, hdigit hd⟩

/-- The texts that are read as an integer in base sixteen are the numerals that stand for it. -/
theorem integer?_eq_some_iff {n : Int} : integer? .sixteen text = some n ↔
    ∃ sign values, IsNumeral text sign values ∧ Signed sign (ofDigits 16 values) n := by
  constructor
  · intro h
    -- What is trimmed off is blank, and what is left has its sign, mark and digits.
    obtain ⟨before, after, hcs, hblank⟩ := exists_trimNumeral text.toList
    rw [integer?] at h
    have hread (sign : List Char) {cs : List Char} {m : Nat}
        (htrim : trimNumeral text.toList = sign ++ cs) (hm : magnitude? .sixteen cs = some m) :
        ∃ values, IsNumeral text sign values ∧ ofDigits 16 values = m := by
      obtain ⟨mark, body, values, rfl, hmark, hrun, hvalue⟩ := magnitude?_eq_some_iff.1 hm
      exact ⟨values, ⟨before, mark, body, after, htrim ▸ hcs, hblank, hmark, hrun⟩, hvalue⟩
    -- The reader looks for a sign before it looks for a mark, one case for each.
    split at h
    · next rest htrim =>
      cases hm : magnitude? .sixteen rest with
      | none => rw [hm] at h; cases h
      | some m =>
        obtain ⟨values, hnumeral, rfl⟩ := hread ['-'] htrim hm
        rw [hm] at h
        cases h
        exact ⟨_, values, hnumeral, .minus _⟩
    · next rest htrim =>
      cases hm : magnitude? .sixteen rest with
      | none => rw [hm] at h; cases h
      | some m =>
        obtain ⟨values, hnumeral, rfl⟩ := hread ['+'] htrim hm
        rw [hm] at h
        cases h
        exact ⟨_, values, hnumeral, .plus _⟩
    · cases hm : magnitude? .sixteen (trimNumeral text.toList) with
      | none => rw [hm] at h; cases h
      | some m =>
        obtain ⟨values, hnumeral, rfl⟩ := hread [] rfl hm
        rw [hm] at h
        cases h
        exact ⟨_, values, hnumeral, .none _⟩
  -- The blanks are trimmed off again, and the sign decides which case is taken.
  · rintro ⟨sign, values, ⟨before, mark, body, after, htext, hblank, hmark, hrun⟩, hsign⟩
    have hread : magnitude? .sixteen (mark ++ body) = some (ofDigits 16 values) :=
      magnitude?_eq_some_iff.2 ⟨mark, body, values, rfl, hmark, hrun, rfl⟩
    rw [integer?, htext, trimNumeral_signed hblank hsign hmark hrun]
    cases hsign with
    | plus =>
      change ((magnitude? .sixteen (mark ++ body)).map fun n => (n : Int)) = _
      rw [hread]
      rfl
    | minus =>
      change ((magnitude? .sixteen (mark ++ body)).map fun n => -(n : Int)) = _
      rw [hread]
      rfl
    | none =>
      obtain ⟨c, rest, value, hfirst, hc⟩ := hmark.exists_cons hrun
      rw [List.nil_append]
      -- A digit is no sign.
      split
      · next heq =>
        obtain rfl := (List.cons.inj (heq.symm.trans hfirst)).1
        cases hc
      · next heq =>
        obtain rfl := (List.cons.inj (heq.symm.trans hfirst)).1
        cases hc
      · rw [hread]
        rfl

/-! ## Numbers below the radix -/

/-- The last digit is added to the others times the radix. -/
theorem ofDigits_append_singleton (radix : Nat) (digits : List Nat) (d : Nat) :
    ofDigits radix (digits ++ [d]) = ofDigits radix digits * radix + d := by
  simp only [ofDigits, List.foldl_append, List.foldl_cons, List.foldl_nil]

/-- A number below the radix has nothing but zeros in front of its last digit. -/
theorem ofDigits_eq_iff {radix k : Nat} (hk : k < radix) (hvalues : values ≠ []) :
    ofDigits radix values = k ↔ ∃ zeros, values = List.replicate zeros 0 ++ [k] := by
  -- A sum of products is zero only if every digit is.
  have hzero (values : List Nat) (hradix : 0 < radix) :
      ofDigits radix values = 0 ↔ ∀ value ∈ values, value = 0 := by
    induction values using List.reverseRecOn with
    | nil => simp [ofDigits]
    | append_singleton front last ih =>
      rw [ofDigits_append_singleton, Nat.add_eq_zero_iff, Nat.mul_eq_zero, ih]
      simp only [List.forall_mem_append, List.forall_mem_singleton]
      constructor
      · rintro ⟨hfront | hnone, hlast⟩
        · exact ⟨hfront, hlast⟩
        · omega
      · exact fun h => ⟨.inl h.1, h.2⟩
  obtain ⟨front, last, rfl⟩ := (List.eq_nil_or_concat' values).resolve_left hvalues
  rw [ofDigits_append_singleton]
  constructor
  · intro h
    have hfront : ofDigits radix front = 0 := by
      -- A digit in front would count at least the radix, which is more than the number.
      by_contra hne
      have hle : 1 * radix ≤ ofDigits radix front * radix :=
        Nat.mul_le_mul_right radix (Nat.pos_of_ne_zero hne)
      omega
    rw [hfront, Nat.zero_mul, Nat.zero_add] at h
    subst h
    refine ⟨front.length, ?_⟩
    rw [List.eq_replicate_of_mem ((hzero front (by omega)).1 hfront), List.length_replicate]
  · rintro ⟨zeros, h⟩
    obtain ⟨rfl, hlast⟩ := List.append_inj' h rfl
    obtain rfl := (List.cons.inj hlast).1
    rw [(hzero _ (by omega)).2 fun value hvalue => List.eq_of_mem_replicate hvalue, Nat.zero_mul,
      Nat.zero_add]

end Chip8.Text
