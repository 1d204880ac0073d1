import Chip8.Text.Numeral
import Chip8.Word

/-!
# Keypad

Which of the sixteen keys are held, and the latch of the instruction that waits for a key. The
host replaces the held keys as a whole; only instructions move the latch.
-/

namespace Chip8

/-- Why a new set of key states was refused. -/
inductive KeypadError
  -- There were `count` states instead of one for each key.
  | wrongCount (count : Nat)
deriving DecidableEq, Repr

/-- The wording of a refusal. -/
def KeypadError.message : KeypadError → String
  | .wrongCount count => s!"Expected 16 key states, got {count}"

/-- The key that a hexadecimal numeral names. -/
def keyOfNumeral? (text : String) : Option Nibble :=
  match Text.integer? .sixteen text with
  | some n => if h : 0 ≤ n ∧ n < 16 then some ⟨n.toNat, Nibble.toNat_lt h⟩ else none
  | none => none

/-- A numeral names the key of its number. -/
theorem keyOfNumeral?_eq_some_iff {text : String} {key : Nibble} :
    keyOfNumeral? text = some key ↔ Text.integer? .sixteen text = some (key.val : Int) := by
  rw [keyOfNumeral?]
  cases hread : Text.integer? .sixteen text with
  | none => simp
  | some n =>
    by_cases hrange : 0 ≤ n ∧ n < 16
    · simp only [hrange, and_self, dite_true, Option.some.injEq, Fin.ext_iff]
      omega
    · simp only [hrange, dite_false, reduceCtorEq, Option.some.injEq, false_iff]
      omega

/-- Whether the machine waits for a key, and for which register. -/
inductive KeyWait
  | running
  -- The next key goes to the register.
  | awaiting (register : Int)
deriving DecidableEq, Repr

/-- One flag for each key. -/
abbrev KeyStates := Vector Bool 16

namespace KeyStates

/-- No key held. -/
def none : KeyStates :=
  Vector.replicate 16 false

/-- The states of a list that has exactly one for each key. -/
def ofList? (states : List Bool) : Except KeypadError KeyStates :=
  if h : states.length = 16 then .ok ⟨states.toArray, by simp [h]⟩
  else .error (.wrongCount states.length)

/-- The keys of a list held, all others released. -/
def holding (keys : List Nibble) : KeyStates :=
  keys.foldl (fun states key => states.set key.val true) none

/-- Releases a held key, or holds a released one. -/
def toggle (states : KeyStates) (key : Nibble) : KeyStates :=
  states.set key.val (!states[key])

/-- The held keys in rising order. -/
def held (states : KeyStates) : List Nibble :=
  (List.finRange 16).filter fun key => states[key]

end KeyStates

/-- The held keys and the wait latch. -/
structure Keypad where
  states : KeyStates := .none
  wait : KeyWait := .running
deriving DecidableEq, Repr

namespace Keypad

/-- Whether the machine waits for a key. -/
def awaiting (k : Keypad) : Bool :=
  match k.wait with
  | .running => false
  | .awaiting _ => true

/-- The register that waits for a key. -/
def target (k : Keypad) : Option Int :=
  match k.wait with
  | .running => none
  | .awaiting register => some register

/-- Replaces the held keys. -/
def setStates? (k : Keypad) (states : List Bool) : Except KeypadError Keypad := do
  let states ← KeyStates.ofList? states
  return { k with states }

/-- Whether a key is held; numbers outside 0 to 15 name no key. -/
def isDown (k : Keypad) (key : Int) : Bool :=
  if h : 0 ≤ key ∧ key < 16 then k.states[key.toNat] else false

/-- The lowest held key. -/
def firstHeld (k : Keypad) : Option Nibble :=
  k.states.findFinIdx? id

/-- Starts to wait for a key. -/
def beginWait (k : Keypad) (register : Int) : Keypad :=
  { k with wait := .awaiting register }

/-- Stops waiting. -/
def endWait (k : Keypad) : Keypad :=
  { k with wait := .running }

/-- A wait and its register come and go together. -/
theorem awaiting_eq_isSome_target (k : Keypad) : k.awaiting = k.target.isSome := by
  unfold awaiting target
  cases k.wait <;> rfl

end Keypad

end Chip8
