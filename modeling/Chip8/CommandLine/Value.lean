import Chip8.Keypad
import Chip8.Text.Numeral
import Chip8.Text.Quoted
import Chip8.Word

/-!
# Values on the command line

What an argument of a command line may be, and how it is read.
-/

namespace Chip8.CommandLine

/-- What a value has to be. -/
inductive Kind
  | text
  | positive
  | whole
  | key
  | choice (words : List String)
deriving DecidableEq, Repr

/-- A value that was read. -/
inductive Value
  | text (text : String)
  | whole (number : Int)
  | key (key : Nibble)
deriving DecidableEq, Repr

/-- What a command line says about a setting. -/
inductive Setting (α : Type)
  | absent
  -- It is named without a value.
  | blank
  | value (value : α)
deriving DecidableEq, Repr

namespace Setting

variable {α : Type}

/-- The value, if there is one. -/
def value? : Setting α → Option α
  | value a => some a
  | _ => none

/-- The value that is valid, where a setting that is not named has a default. -/
def orDefault (default : α) : Setting α → Option α
  | absent => some default
  | blank => none
  | value a => some a

/-- What is said about a setting that may be left open. -/
def orOpen : Setting α → Option (Option α)
  | absent => some none
  | blank => none
  | value a => some (some a)

end Setting

/-- What is wrong with an argument. -/
inductive Problem
  | missingValue
  -- It takes no value, but one is attached.
  | extraValue (text : String)
  | notPositive (text : String)
  | notWhole (text : String)
  | notKey (text : String)
  | notChoice (text : String) (words : List String)
deriving DecidableEq, Repr

/-- The wording of a problem. -/
def Problem.message : Problem → String
  | missingValue => "expected one argument"
  | extraValue text => "ignored explicit argument " ++ Text.quoted text
  | notPositive text => "expected a positive integer, got '" ++ text ++ "'"
  | notWhole text => "invalid int value: " ++ Text.quoted text
  | notKey text => "invalid key '" ++ text ++ "', expected a hex digit 0-F"
  | notChoice text words =>
    "invalid choice: " ++ Text.quoted text ++ " (choose from " ++
      String.intercalate ", " (words.map Text.quoted) ++ ")"

/-- Reads a value. -/
def Kind.read (kind : Kind) (text : String) : Except Problem Value :=
  match kind with
  | .text => .ok (.text text)
  | .positive =>
    match Text.integer? .ten text with
    | some n => if n < 1 then .error (.notPositive text) else .ok (.whole n)
    | none => .error (.notPositive text)
  | .whole =>
    match Text.integer? .ten text with
    | some n => .ok (.whole n)
    | none => .error (.notWhole text)
  | .key =>
    match keyOfNumeral? text with
    | some k => .ok (.key k)
    | none => .error (.notKey text)
  | .choice words =>
    if text ∈ words then .ok (.text text) else .error (.notChoice text words)

end Chip8.CommandLine
