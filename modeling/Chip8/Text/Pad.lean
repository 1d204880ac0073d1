/-!
# Fixed-width fields

A field is a text brought to a least width by a filler on one side; a text that is already
wider is left alone. Widths count code points.
-/

namespace Chip8.Text

/-- Fills on the left up to `width` characters. -/
def padLeft (width : Nat) (filler : Char) (text : String) : String :=
  String.ofList (List.leftpad width filler text.toList)

/-- Fills on the right up to `width` characters. -/
def padRight (width : Nat) (filler : Char) (text : String) : String :=
  String.ofList (List.rightpad width filler text.toList)

@[simp] theorem toList_padLeft (width : Nat) (filler : Char) (text : String) :
    (padLeft width filler text).toList = List.leftpad width filler text.toList := by
  simp [padLeft]

@[simp] theorem toList_padRight (width : Nat) (filler : Char) (text : String) :
    (padRight width filler text).toList = List.rightpad width filler text.toList := by
  simp [padRight]

end Chip8.Text
