import Chip8.Text.Printable

/-!
# Quoted texts

A text between single quotes, or between double quotes if it holds single ones but no double
ones. The quote, the backslash and characters that are not printable are written as escapes.
-/

namespace Chip8.Text

/-- The lower-case hexadecimal digits of a number, at least `width` of them. -/
def escapeDigits (width n : Nat) : List Char :=
  List.leftpad width '0' (Nat.toDigits 16 n)

/-- A character between quotes. -/
def escape (quote c : Char) : List Char :=
  if c = quote || c = '\\' then ['\\', c]
  else if c = '\n' then ['\\', 'n']
  else if c = '\r' then ['\\', 'r']
  else if c = '\t' then ['\\', 't']
  else if isPrintable c then [c]
  else if c.toNat < 0x100 then '\\' :: 'x' :: escapeDigits 2 c.toNat
  else if c.toNat < 0x10000 then '\\' :: 'u' :: escapeDigits 4 c.toNat
  else '\\' :: 'U' :: escapeDigits 8 c.toNat

/-- The quote for a text. -/
def quoteFor (cs : List Char) : Char :=
  if '\'' ∈ cs ∧ '"' ∉ cs then '"' else '\''

/-- A text between quotes. -/
def quoted (text : String) : String :=
  let quote := quoteFor text.toList
  String.ofList (quote :: text.toList.flatMap (escape quote) ++ [quote])

end Chip8.Text
