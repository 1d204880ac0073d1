import Chip8.Number.Binary64

/-!
# Shortest decimals

The decimal text of a binary64 number: the fewest significant digits that read back as the number.
Of several decimals with so few digits the one nearest to the number is taken, and of two equally
near ones the one with the even last digit.

Numbers from 10^-4 up to 10^16 are written positionally, with at least one digit on each side of the
point; others with one digit in front of the point and an exponent.
-/

namespace Chip8.Binary64

-- Powers are those of natural numbers here, and not those of a monoid.
attribute [local instance (1100)] instPowNat

/-- Whether a magnitude in units is a power of ten or more. -/
def reaches (units : Nat) (exponent : Int) : Bool :=
  one * 10 ^ exponent.toNat ≤ units * 10 ^ (-exponent).toNat

/-- The exponent of the first significant digit of a positive magnitude. -/
def firstExponent (units : Nat) : Int :=
  -- The binary logarithm gives it up to one.
  let estimate := ((units.log2 : Int) - 1074) * 30103 / 100000
  if reaches units (estimate + 1) then estimate + 1
  else if reaches units estimate then estimate
  else estimate - 1

/-- The multiple of a power of ten that reads back as a magnitude, if there is one: the nearest
multiple, or else the one on the other side. -/
def onGrid? (units : Nat) (exponent : Int) : Option Nat :=
  let numerator := units * 10 ^ (-exponent).toNat
  let denominator := one * 10 ^ exponent.toNat
  let floor := numerator / denominator
  [roundHalfEven numerator denominator, floor, floor + 1].find? fun digits =>
    ofDecimal false digits exponent = finite false units

/-- The digits of a positive magnitude and the exponent of the last one: those on the coarsest grid
that has any, among the grids of one to seventeen digits, or else all digits. -/
def shortestDigits (units : Nat) : Nat × Int :=
  let first := firstExponent units
  let found := (List.range 17).findSome? fun (places : Nat) =>
    (onGrid? units (first - places)).map fun digits => (digits, first - places)
  found.getD (units * 5 ^ (1074 : Nat), -1074)

/-- The text for digits of which the first one has the given exponent. -/
def layout (digits : List Char) (exponent : Int) : String :=
  let orZero (digits : List Char) := if digits.isEmpty then ['0'] else digits
  String.ofList <|
    if 0 ≤ exponent ∧ exponent < 16 then
      let whole := exponent.toNat + 1
      List.rightpad whole '0' (digits.take whole) ++ '.' :: orZero (digits.drop whole)
    else if -4 ≤ exponent ∧ exponent < 0 then
      '0' :: '.' :: List.replicate (exponent.natAbs - 1) '0' ++ digits
    else
      let rest := digits.drop 1
      digits.take 1 ++ (if rest.isEmpty then [] else '.' :: rest) ++
        'e' :: (if exponent < 0 then '-' else '+') ::
          List.leftpad 2 '0' (toString exponent.natAbs).toList

/-- The text of a positive magnitude. -/
def magnitudeText (units : Nat) : String :=
  let (digits, exponent) := shortestDigits units
  let digits := (toString digits).toList
  -- Zeros at the end carry no information, and the exponent counts from the first digit.
  layout (digits.reverse.dropWhile (· = '0')).reverse (exponent + digits.length - 1)

/-- The shortest text that reads back as a number. -/
def shortest : Binary64 → String
  | finite negative units =>
    (if negative then "-" else "") ++ (if units = 0 then "0.0" else magnitudeText units)
  | infinite negative => if negative then "-inf" else "inf"
  | nan => "nan"

end Chip8.Binary64
