/-!
# Grouped digits

Whole numbers with a comma between groups of three digits.
-/

namespace Chip8

/-- Puts a comma before every third character from the end. -/
def groupThrees (digits : List Char) : List Char :=
  if digits.length ≤ 3 then digits
  else groupThrees (digits.take (digits.length - 3)) ++ ',' :: digits.drop (digits.length - 3)
termination_by digits.length
decreasing_by simp only [List.length_take]; omega

/-- A whole number with grouped digits. -/
def grouped (value : Int) : String :=
  (if value < 0 then "-" else "") ++ String.ofList (groupThrees (toString value.natAbs).toList)

/-- A decimal text with grouped digits in front of the point or the exponent. -/
def groupedText (text : String) : String :=
  let sign := text.toList.takeWhile (· = '-')
  let unsigned := text.toList.dropWhile (· = '-')
  String.ofList
    (sign ++ groupThrees (unsigned.takeWhile Char.isDigit) ++ unsigned.dropWhile Char.isDigit)

end Chip8
