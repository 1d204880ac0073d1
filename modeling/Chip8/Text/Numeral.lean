import Chip8.Text.Blank
import Chip8.Text.Digit

/-!
# Numerals

How an integer is read from a text in base ten or sixteen: blanks around it, a sign, in base
sixteen perhaps the mark `0x`, and digits, between which single underscores may stand; one may
also follow the mark. Decimal digits of every script count; the letters are ASCII. A numeral in
base ten has at most 4300 digits.
-/

namespace Chip8.Text

/-- The base of a numeral. -/
inductive Base
  | ten | sixteen
deriving DecidableEq, Repr

/-- The number of digits of a base. -/
def Base.radix : Base → Nat
  | ten => 10
  | sixteen => 16

/-- The value of a digit in a base. -/
def digitValue? (base : Base) (c : Char) : Option Nat :=
  match decimalValue? c with
  | some value => some value
  | none =>
    match base with
    | .ten => none
    | .sixteen =>
      if 'a' ≤ c ∧ c ≤ 'f' then some (c.toNat - 'a'.toNat + 10)
      else if 'A' ≤ c ∧ c ≤ 'F' then some (c.toNat - 'A'.toNat + 10)
      else none

/-- Whether a character may surround a numeral: of the ASCII characters only the space and those
that move the position, of the others all blanks. -/
def surroundsNumeral (c : Char) : Bool :=
  isBlank c && !(0x1C ≤ c.toNat && c.toNat ≤ 0x1F)

/-- A text without the blanks around it. -/
def trimNumeral (cs : List Char) : List Char :=
  ((cs.dropWhile surroundsNumeral).reverse.dropWhile surroundsNumeral).reverse

/-- The values of a run of digits, between which single underscores may stand. -/
def digitRun? (base : Base) : List Char → Option (List Nat)
  | [] => none
  | [c] => (digitValue? base c).map ([·])
  | c :: '_' :: rest => do
    let value ← digitValue? base c
    let values ← digitRun? base rest
    return value :: values
  | c :: rest => do
    let value ← digitValue? base c
    let values ← digitRun? base rest
    return value :: values

/-- The number of a list of digits, the most significant first. -/
def ofDigits (radix : Nat) (digits : List Nat) : Nat :=
  digits.foldl (fun n digit => n * radix + digit) 0

/-- A numeral without the mark of base sixteen and the underscore after it. The mark is a zero of
any script and an ASCII letter. -/
def dropMark (base : Base) (cs : List Char) : List Char :=
  match base, cs with
  | .sixteen, zero :: letter :: rest =>
    if decimalValue? zero = some 0 ∧ (letter = 'x' ∨ letter = 'X') then
      if rest.head? = some '_' then rest.tail else rest
    else cs
  | _, _ => cs

/-- The most digits that a numeral in base ten may have. -/
def decimalLimit : Nat := 4300

/-- The number of a numeral without sign and blanks. -/
def magnitude? (base : Base) (cs : List Char) : Option Nat := do
  let digits ← digitRun? base (dropMark base cs)
  -- Leading zeros count towards the limit, underscores do not.
  if base = .ten ∧ decimalLimit < digits.length then none
  else return ofDigits base.radix digits

/-- The integer that a text stands for. -/
def integer? (base : Base) (text : String) : Option Int :=
  match trimNumeral text.toList with
  | '-' :: rest => (magnitude? base rest).map fun n => -(n : Int)
  | '+' :: rest => (magnitude? base rest).map fun n => (n : Int)
  | cs => (magnitude? base cs).map fun n => (n : Int)

end Chip8.Text
