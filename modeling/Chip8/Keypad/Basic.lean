import Chip8.Log

/-!
# Keypads

What a machine asks of its keys. A keypad may change with every question and may have something to
report, so each answer comes with the keypad after it and with log lines. Keys are bytes: a machine
asks for whatever byte its register holds, and takes what it is given.
-/

namespace Chip8

/-- An answer, the keypad after it, and what it reported. -/
structure Reading (κ α : Type) where
  answer : α
  keys : κ
  log : List LogRecord := []

class Keypad (κ : Type) where
  isDown : κ → UInt8 → Reading κ Bool
  /-- The next key pressed, or nothing if the user wants to stop. -/
  awaitKey : κ → Reading κ (Option UInt8)
  quitRequested : κ → Reading κ Bool

end Chip8
