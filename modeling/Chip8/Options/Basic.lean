import Chip8.Keypad.Layout
import Chip8.Sound

/-!
# Options

What a user chooses on the command line, and the times that follow from it.
-/

namespace Chip8

/-- The choices of a user. -/
structure Options where
  rom : String
  /-- Steps a second. -/
  speed : UInt32 := 500
  sound : SoundDevice := .beep
  layout : Layout := .conventional
  /-- Where the random numbers start, for repeatable runs. -/
  seed : Option UInt64 := none
  /-- How long a press counts as held, in milliseconds. -/
  keyHoldMs : UInt64 := 100
  deriving DecidableEq, Repr

namespace Options

/-- Nanoseconds in a second. -/
def second : Nat := 1000000000

/-- Frames a second. -/
def frameRate : Nat := 60

/-- The time between steps, in whole nanoseconds; a speed of zero counts as one. -/
def stepPeriod (o : Options) : Nat :=
  second / max o.speed.toNat 1

/-- The time between frames, in whole nanoseconds. -/
def framePeriod (_ : Options) : Nat :=
  second / frameRate

/-- How long a press counts as held, in nanoseconds. -/
def keyHold (o : Options) : Nat :=
  o.keyHoldMs.toNat * 1000000

end Options

end Chip8
