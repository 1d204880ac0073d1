/-!
# Hexadecimal fields

Numbers are written in base sixteen with upper-case digits. A field has a least width that is
reached by leading zeros; a minus sign counts as one of its characters, so `-1` in a field of
three is `-01`.
-/

namespace Chip8.Text

/-- The upper-case digit for a number below sixteen. -/
def hexDigit (d : Nat) : Char :=
  Char.ofNat (if d < 10 then 48 + d else 55 + d)

/-- The digits of a number in base sixteen, most significant first; zero has one digit. -/
def hexDigits (n : Nat) : List Char :=
  if n < 16 then [hexDigit n] else hexDigits (n / 16) ++ [hexDigit (n % 16)]
termination_by n

/-- The characters of a hexadecimal field of at least `width` characters. -/
def hexField (width : Nat) : Int → List Char
  | .ofNat n => List.leftpad width '0' (hexDigits n)
  | .negSucc n => '-' :: List.leftpad (width - 1) '0' (hexDigits (n + 1))

/-- A hexadecimal field as a text. -/
def hex (width : Nat) (value : Int) : String :=
  String.ofList (hexField width value)

/-- Two hexadecimal digits for a byte. -/
def hexByte (byte : UInt8) : String :=
  hex 2 byte.toNat

/-- The bytes of a list as an unbroken run of digits. -/
def hexBytes (bytes : List UInt8) : String :=
  String.join (bytes.map hexByte)

@[simp] theorem toList_hex (width : Nat) (value : Int) :
    (hex width value).toList = hexField width value := by
  simp [hex]

/-- A digit below sixteen is written alone. -/
theorem hexDigits_of_lt {n : Nat} (h : n < 16) : hexDigits n = [hexDigit n] := by
  rw [hexDigits, if_pos h]

/-- A longer number ends in the digit of its remainder. -/
theorem hexDigits_of_le {n : Nat} (h : 16 ≤ n) :
    hexDigits n = hexDigits (n / 16) ++ [hexDigit (n % 16)] := by
  rw [hexDigits, if_neg (by omega)]

end Chip8.Text
