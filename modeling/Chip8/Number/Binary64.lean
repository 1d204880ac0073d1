/-!
# Binary64 numbers

Numbers of the binary64 format. A finite number is a whole multiple of the smallest positive
one, 2^-1074, so its magnitude is a natural number of such units, and sums, products and
quotients of finite numbers are exact fractions of units before they are rounded. All rounding
goes to the nearest neighbour, a tie to the even one.
-/

namespace Chip8

-- Powers are those of natural numbers here, and not those of a monoid.
attribute [local instance (1100)] instPowNat

/-- The whole number nearest to a fraction; a tie goes to the even neighbour. -/
def roundHalfEven (numerator denominator : Nat) : Nat :=
  let floor := numerator / denominator
  let rest := 2 * (numerator % denominator)
  if rest < denominator then floor
  else if denominator < rest then floor + 1
  else floor + floor % 2

/-- A number of the binary64 format. -/
inductive Binary64
  -- A sign and a magnitude in units of 2^-1074.
  | finite (negative : Bool) (units : Nat)
  -- Beyond the finite range.
  | infinite (negative : Bool)
  | nan
deriving DecidableEq, Repr

namespace Binary64

/-- How many units make one. -/
def one : Nat := 2 ^ (1074 : Nat)

/-- The first magnitude in units beyond the finite range. -/
def bound : Nat := 2 ^ (2098 : Nat)

/-- A fraction of units brought to 53 significant bits. -/
def significant (numerator denominator : Nat) : Nat :=
  let whole := numerator / denominator
  if whole < 2 ^ (53 : Nat) then roundHalfEven numerator denominator
  else
    -- Neighbours at this magnitude are `step` apart, and a carry into the next power of two is
    -- still a multiple of it.
    let step := 2 ^ (whole.log2 - 52)
    roundHalfEven numerator (denominator * step) * step

/-- The number nearest to a fraction of units. -/
def ofUnits (negative : Bool) (numerator denominator : Nat) : Binary64 :=
  let units := significant numerator denominator
  if bound ≤ units then infinite negative else finite negative units

/-- The number nearest to a fraction. -/
def ofRatio (negative : Bool) (numerator denominator : Nat) : Binary64 :=
  ofUnits negative (numerator * one) denominator

/-- The number nearest to an integer. -/
def ofInt (value : Int) : Binary64 :=
  ofRatio (value < 0) value.natAbs 1

/-- The number nearest to a decimal numeral: digits times a power of ten. Exponents that leave the
finite range whatever the digits are decided without the power. -/
def ofDecimal (negative : Bool) (digits : Nat) (exponent : Int) : Binary64 :=
  if digits = 0 then finite negative 0
  else if 400 < exponent then infinite negative
  else if exponent + digits.log2 < -400 then finite negative 0
  else if 0 ≤ exponent then ofRatio negative (digits * 10 ^ exponent.toNat) 1
  else ofRatio negative digits (10 ^ (-exponent).toNat)

/-- Whether a number is finite. -/
def isFinite : Binary64 → Bool
  | finite .. => true
  | _ => false

/-- The signed magnitude in units. -/
def signed (negative : Bool) (units : Nat) : Int :=
  if negative then -units else units

/-- The opposite number. -/
def neg : Binary64 → Binary64
  | finite negative units => finite (!negative) units
  | infinite negative => infinite (!negative)
  | nan => nan

/-- The sum. Opposite numbers add up to the positive zero. -/
def add : Binary64 → Binary64 → Binary64
  | finite n a, finite m b =>
    let sum := signed n a + signed m b
    if sum = 0 then finite (n && m) 0 else ofUnits (sum < 0) sum.natAbs 1
  | infinite n, infinite m => if n = m then infinite n else nan
  | infinite n, finite .. => infinite n
  | finite .., infinite m => infinite m
  | nan, _ => nan
  | _, nan => nan

/-- The difference. -/
def sub (x y : Binary64) : Binary64 :=
  x.add y.neg

/-- The product. -/
def mul : Binary64 → Binary64 → Binary64
  | finite n a, finite m b => ofUnits (n != m) (a * b) one
  | infinite n, infinite m => infinite (n != m)
  | infinite n, finite m b => if b = 0 then nan else infinite (n != m)
  | finite n a, infinite m => if a = 0 then nan else infinite (n != m)
  | nan, _ => nan
  | _, nan => nan

/-- The quotient by a number other than zero. -/
def div : Binary64 → Binary64 → Binary64
  | finite n a, finite m b => ofRatio (n != m) a b
  | infinite _, infinite _ => nan
  | infinite n, finite m _ => infinite (n != m)
  | finite n _, infinite m => finite (n != m) 0
  | nan, _ => nan
  | _, nan => nan

/-- Whether a number is a zero of either sign. -/
def isZero : Binary64 → Bool
  | finite _ units => units = 0
  | _ => false

/-- Whether one number is at most another; nothing compares with what is no number. -/
def le : Binary64 → Binary64 → Bool
  | finite n a, finite m b => signed n a ≤ signed m b
  | infinite n, infinite m => n || !m
  | infinite n, finite .. => n
  | finite .., infinite m => !m
  | nan, _ => false
  | _, nan => false

/-- The digits of a whole number of units of 10^-`places`, with a point. -/
def pointed (places scaled : Nat) : String :=
  let whole := toString (scaled / 10 ^ places)
  if places = 0 then whole
  else whole ++ "." ++
    String.ofList (List.leftpad places '0' (toString (scaled % 10 ^ places)).toList)

/-- The decimal text with a fixed number of places, rounded from the exact value. -/
def fixed (places : Nat) : Binary64 → String
  | finite negative units =>
    (if negative then "-" else "") ++ pointed places (roundHalfEven (units * 10 ^ places) one)
  | infinite negative => if negative then "-inf" else "inf"
  | nan => "nan"

end Binary64

end Chip8
