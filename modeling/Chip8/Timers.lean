/-!
# Timers

Two counters that run down to zero, one step at each 60 Hz tick.
-/

namespace Chip8

/-- The delay and the sound timer. -/
structure Timers where
  -- Counts time for the program.
  delay : Int := 0
  -- Sounds while it is positive.
  sound : Int := 0
deriving DecidableEq, Repr

namespace Timers

/-- One step towards zero; a timer that is not positive stays as it is. -/
def countDown (t : Int) : Int :=
  if 0 < t then t - 1 else t

/-- One tick of both timers. -/
def tick (t : Timers) : Timers :=
  { delay := countDown t.delay, sound := countDown t.sound }

/-- Whether the machine makes a sound. -/
def sounding (t : Timers) : Bool :=
  0 < t.sound

/-- A timer that counts down from a natural number never goes below zero. -/
theorem countDown_of_nonneg {t : Int} (h : 0 ≤ t) : countDown t = max 0 (t - 1) := by
  unfold countDown
  split <;> omega

end Timers

end Chip8
