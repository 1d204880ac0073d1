import Chip8.Machine.Basic

/-!
# Changes

What differs between two states of a machine: the memory as maximal runs of changed bytes, and
the screen as changed rows.
-/

namespace Chip8

/-- Puts a changed byte in front of runs that begin above it: it joins the first run if that
begins at the next address. -/
def Memory.prependChange (address : Nat) (byte : UInt8) :
    List (Nat × List UInt8) → List (Nat × List UInt8)
  | (start, bytes) :: rest =>
    if start = address + 1 then (address, byte :: bytes) :: rest
    else (address, [byte]) :: (start, bytes) :: rest
  | [] => [(address, [byte])]

/-- The maximal runs of addresses at which `after` differs, with its bytes there. -/
def Memory.changes (before after : Ram) : List (Nat × List UInt8) :=
  (List.finRange 4096).foldr
    (fun a runs =>
      if before.read a = after.read a then runs else prependChange a.val (after.read a) runs)
    []

/-- The numbers of the rows that differ, with what `after` has there. -/
def Framebuffer.changes {width height : Nat} (before after : Framebuffer width height) :
    List (Nat × List Bool) :=
  (List.finRange height).filterMap fun y =>
    if before.rows.get y = after.rows.get y then none else some (y.val, (after.rows.get y).toList)

/-- Pixels as hexadecimal digits of four columns each, the leftmost pixel highest; missing
columns of the last digit are off. -/
def Screen.hexRow : List Bool → List Char
  | [] => []
  | a :: b :: c :: d :: rest =>
    Text.hexDigit (8 * a.toNat + 4 * b.toNat + 2 * c.toNat + d.toNat) :: hexRow rest
  | a :: rest =>
    [Text.hexDigit (8 * a.toNat + 4 * (rest.getD 0 false).toNat + 2 * (rest.getD 1 false).toNat)]

end Chip8
