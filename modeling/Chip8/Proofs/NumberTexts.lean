import Chip8.Number.Quantity
import Chip8.Proofs.Lines
import Chip8.Text.Pad

/-!
# Numbers as texts

Numbers are shown with grouped digits and shares with a fixed number of places. Grouping puts commas
between the digits and changes none of them, so that a number is read by leaving the commas out. No
such text has a line end.

## Key results

- `filter_groupThrees`, `isWritten_grouped`: the digits among the commas
- `oneLine_grouped`, `Quantity.oneLine_percent`: numbers and shares are single lines
-/

namespace Chip8

/-! ## Single lines -/

namespace Text

/-- A number holds nothing but digits. -/
private theorem not_mem_toString (n : Nat) {c : Char} (hc : c.isDigit = false) :
    c ∉ (toString n).toList := by
  have htext : (toString n).toList = Nat.toDigits 10 n := Nat.toList_repr
  rw [htext]
  intro hmem
  have hdigit := Nat.isDigit_of_mem_toDigits (by decide) (by decide) hmem
  exact Bool.false_ne_true (hc.symm.trans hdigit)

/-- A number is one line. -/
theorem oneLine_toString (n : Nat) : OneLine (toString n) :=
  not_mem_toString n rfl

/-- Padding puts in nothing but the filler. -/
private theorem oneLine_leftpad {width : Nat} {filler : Char} {cs : List Char}
    (hfiller : '\n' ≠ filler) (h : '\n' ∉ cs) : '\n' ∉ List.leftpad width filler cs := by
  rw [List.leftpad, List.mem_append, not_or]
  exact ⟨fun hmem => hfiller (List.eq_of_mem_replicate hmem), h⟩

/-- A text padded on the left stays one line. -/
theorem oneLine_padLeft (width : Nat) {text : String} (h : OneLine text) :
    OneLine (padLeft width ' ' text) := by
  rw [OneLine, toList_padLeft]
  exact oneLine_leftpad (by decide) h

/-- A text padded on the right stays one line. -/
theorem oneLine_padRight (width : Nat) {text : String} (h : OneLine text) :
    OneLine (padRight width ' ' text) := by
  rw [OneLine, toList_padRight, List.rightpad, List.mem_append, not_or]
  exact ⟨h, fun hmem => absurd (List.eq_of_mem_replicate hmem) (by decide)⟩

end Text

/-! ## Written numbers -/

/-- Grouping puts in nothing but commas. -/
theorem filter_groupThrees {digits : List Char} (h : ',' ∉ digits) :
    (groupThrees digits).filter (· ≠ ',') = digits := by
  have hself {cs : List Char} (hcs : ',' ∉ cs) : cs.filter (· ≠ ',') = cs := by
    refine List.filter_eq_self.2 fun c hc => ?_
    exact decide_eq_true fun heq => hcs (heq ▸ hc)
  -- The recursion cuts off the last three digits, so the induction follows it, not the list.
  induction digits using groupThrees.induct with
  | case1 digits hshort => rw [groupThrees, if_pos hshort, hself h]
  | case2 digits hlong ih =>
    have hfirst : ',' ∉ digits.take (digits.length - 3) :=
      fun hmem => h (List.mem_of_mem_take hmem)
    have hlast : ',' ∉ digits.drop (digits.length - 3) :=
      fun hmem => h (List.mem_of_mem_drop hmem)
    rw [groupThrees, if_neg hlong, List.filter_append, ih hfirst, List.filter_cons_of_neg (by simp),
      hself hlast, List.take_append_drop]

/-- The text is the number in decimal digits, apart from commas. -/
def IsWritten (n : Int) (text : String) : Prop :=
  text.toList.filter (· ≠ ',') = (toString n).toList

/-- A natural number has no sign before its groups. -/
private theorem toList_grouped (n : Nat) :
    (grouped n).toList = groupThrees (toString n).toList := by
  rw [grouped, if_neg (by omega), String.empty_append, String.toList_ofList]
  rfl

/-- A number with grouped digits is written. -/
theorem isWritten_grouped {n : Int} (h : 0 ≤ n) : IsWritten n (grouped n) := by
  obtain ⟨k, rfl⟩ := Int.eq_ofNat_of_zero_le h
  rw [IsWritten, toList_grouped, filter_groupThrees (Text.not_mem_toString k rfl)]
  rfl

/-- A number with grouped digits is one line. -/
theorem oneLine_grouped {n : Int} (h : 0 ≤ n) : Text.OneLine (grouped n) := by
  obtain ⟨k, rfl⟩ := Int.eq_ofNat_of_zero_le h
  -- A line end would survive leaving out the commas, and digits are none.
  intro hmem
  have hdigits : '\n' ∈ (toString k).toList := by
    have hwritten : IsWritten k (grouped k) := isWritten_grouped h
    have hfilter : '\n' ∈ (grouped k).toList.filter (· ≠ ',') :=
      List.mem_filter.2 ⟨hmem, by decide⟩
    rwa [hwritten] at hfilter
  exact Text.oneLine_toString k hdigits

/-- A text with a point is one line. -/
private theorem Binary64.oneLine_fixed (places : Nat) (x : Binary64) :
    Text.OneLine (x.fixed places) := by
  -- What stands before and behind the point are digits, of which the latter are padded with
  -- zeros.
  have hpointed (scaled : Nat) : Text.OneLine (pointed places scaled) := by
    unfold pointed
    dsimp only
    split
    · exact Text.oneLine_toString _
    · have hpoint : Text.OneLine "." := by decide +kernel
      refine Text.oneLine_append (Text.oneLine_append (Text.oneLine_toString _) hpoint) ?_
      rw [Text.OneLine, String.toList_ofList]
      exact Text.oneLine_leftpad (by decide) (Text.oneLine_toString _)
  -- A finite number has its sign before the digits; the others are fixed words.
  cases x with
  | finite negative units =>
    refine Text.oneLine_append ?_ (hpointed _)
    cases negative with
    | true => decide +kernel
    | false => decide +kernel
  | infinite negative =>
    cases negative with
    | true => exact (by decide +kernel : Text.OneLine "-inf")
    | false => exact (by decide +kernel : Text.OneLine "inf")
  | nan => exact (by decide +kernel : Text.OneLine "nan")

/-- A share is one line. -/
theorem Quantity.oneLine_percent {places : Nat} {count total : Quantity} {share : String}
    (h : percent places count total = .ok share) : Text.OneLine share := by
  unfold percent at h
  cases hquotient : count.div total with
  -- A quotient that overflows is an error, and then there is no share.
  | error error =>
    rw [hquotient] at h
    cases h
  | ok quotient =>
    rw [hquotient] at h
    cases h
    exact Text.oneLine_append (Binary64.oneLine_fixed _ _) (by decide +kernel)

end Chip8
