/-!
# Sound

The devices a beep can be played on, and what each of them sends to the terminal.
-/

namespace Chip8

inductive SoundDevice where
  /-- A tone; a terminal without a speaker rings its bell. -/
  | beep
  | bell
  | mute
  deriving DecidableEq, Repr

namespace SoundDevice

/-- The bytes that one beep sends to the terminal. -/
def signal : SoundDevice → List UInt8
  | beep => [0x07]
  | bell => [0x07]
  | mute => []

/-- The bytes that a number of beeps send to the terminal. -/
def signals (device : SoundDevice) : Nat → List UInt8
  | 0 => []
  | plays + 1 => device.signal ++ device.signals plays

end SoundDevice

end Chip8
