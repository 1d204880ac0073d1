import Chip8.Number.Binary64
import Chip8.Number.Grouped
import Chip8.Number.Shortest
import Chip8.Text.Numeral

/-!
# Quantities

A quantity is a whole number, kept exactly, or a binary64 number. Whole numbers are divided as
such: the quotient is the binary64 number nearest to the exact fraction. As soon as one side is a
binary64 number, so is the other.
-/

namespace Chip8

-- Powers are those of natural numbers here, and not those of a monoid.
attribute [local instance (1100)] instPowNat

/-- Why a calculation has no result. -/
inductive NumberError
  | divisionByZero
  | realDivisionByZero
  -- The quotient of two whole numbers leaves the binary64 range.
  | quotientTooLarge
  | wholeTooLarge
  | tooManyDigits
deriving DecidableEq, Repr

/-- The wording of a failure. -/
def NumberError.message : NumberError → String
  | .divisionByZero => "division by zero"
  | .realDivisionByZero => "float division by zero"
  | .quotientTooLarge => "integer division result too large for a float"
  | .wholeTooLarge => "int too large to convert to float"
  | .tooManyDigits =>
    s!"Exceeds the limit ({Text.decimalLimit} digits) for integer string conversion; " ++
      "use sys.set_int_max_str_digits() to increase the limit"

/-- A whole number with grouped digits, as long as these are no more than a numeral may have. -/
def grouped? (value : Int) : Except NumberError String :=
  if 10 ^ Text.decimalLimit ≤ value.natAbs then .error .tooManyDigits else .ok (grouped value)

/-- A whole number or a binary64 number. -/
inductive Quantity
  | whole (value : Int)
  | real (value : Binary64)
deriving DecidableEq, Repr

namespace Quantity

/-- The binary64 number nearest to the quotient of two whole numbers. -/
def ratio (numerator denominator : Int) : Except NumberError Binary64 :=
  if denominator = 0 then .error .divisionByZero
  else
    let quotient := Binary64.ofRatio (decide (numerator < 0) != decide (denominator < 0))
      numerator.natAbs denominator.natAbs
    if quotient.isFinite then .ok quotient else .error .quotientTooLarge

/-- A quantity as a binary64 number. -/
def toReal : Quantity → Except NumberError Binary64
  | whole value =>
    let nearest := Binary64.ofInt value
    if nearest.isFinite then .ok nearest else .error .wholeTooLarge
  | real value => .ok value

/-- The sum. -/
def add (x y : Quantity) : Except NumberError Quantity :=
  match x, y with
  | whole a, whole b => .ok (whole (a + b))
  | _, _ => do return real ((← x.toReal).add (← y.toReal))

/-- The difference. -/
def sub (x y : Quantity) : Except NumberError Quantity :=
  match x, y with
  | whole a, whole b => .ok (whole (a - b))
  | _, _ => do return real ((← x.toReal).sub (← y.toReal))

/-- The quotient. -/
def div (x y : Quantity) : Except NumberError Binary64 :=
  match x, y with
  | whole a, whole b => ratio a b
  | _, _ => do
    let dividend ← x.toReal
    let divisor ← y.toReal
    if divisor.isZero then .error .realDivisionByZero else .ok (dividend.div divisor)

/-- Whether one quantity is at most another. The comparison is exact. -/
def le : Quantity → Quantity → Bool
  | whole a, whole b => a ≤ b
  | real a, real b => a.le b
  | whole a, real (.finite n units) => a * Binary64.one ≤ Binary64.signed n units
  | real (.finite n units), whole b => Binary64.signed n units ≤ b * Binary64.one
  -- A number that is not finite compares with all whole numbers alike.
  | whole _, real b => (Binary64.finite false 0).le b
  | real a, whole _ => a.le (.finite false 0)

/-- Whether one quantity is less than another. What is not a number is less than nothing and has
nothing that is less. -/
def lt (x y : Quantity) : Bool :=
  x.le y && !y.le x

/-- Whether two quantities are equal. What is not a number equals nothing. -/
def eq (x y : Quantity) : Bool :=
  x.le y && y.le x

/-- Whether a quantity is at least a whole number. -/
def atLeast (limit : Nat) (x : Quantity) : Bool :=
  (whole limit).le x

/-- Whether a quantity is zero. -/
def isZero : Quantity → Bool
  | whole value => value = 0
  | real value => value.isZero

/-- Whether a quantity is above zero. -/
def positive (x : Quantity) : Bool :=
  (whole 0).lt x

/-- The decimal text with grouped digits. -/
def grouped : Quantity → String
  | whole value => Chip8.grouped value
  | real value => groupedText value.shortest

/-- The decimal text with grouped digits, of which a whole number has no more than a numeral may
have. -/
def grouped? : Quantity → Except NumberError String
  | whole value => Chip8.grouped? value
  | real value => .ok (groupedText value.shortest)

/-- The decimal text with a fixed number of places. -/
def fixed (places : Nat) (x : Quantity) : Except NumberError String := do
  return (← x.toReal).fixed places

/-- A share of a total in percent with a fixed number of places. -/
def percent (places : Nat) (count total : Quantity) : Except NumberError String := do
  let share ← count.div total
  return (share.mul (.ofInt 100)).fixed places ++ "%"

end Quantity

end Chip8
