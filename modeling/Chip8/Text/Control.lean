/-!
# Control codes

The control codes that ring the bell of a terminal or move its position. A text that is shown in a
panel is shown without them; line ends and tabs stay.
-/

namespace Chip8.Text

/-- Whether a character is a bell, a backspace, a vertical tab, a form feed or a carriage return. -/
def isControlCode (c : Char) : Bool :=
  c.toNat ∈ [7, 8, 11, 12, 13]

/-- A text without its control codes. -/
def withoutControlCodes (text : String) : String :=
  String.ofList (text.toList.filter fun c => !isControlCode c)

end Chip8.Text
