/-!
# Instructions

The operations a CHIP-8 program is made of, with their operands taken out of the word. Register
numbers and short operands are bytes, addresses are 16-bit words: a decoded word only ever yields
nibbles and 12-bit addresses, but a caller may carry out any instruction of these types.
-/

namespace Chip8

/-- What a skip looks at before it passes over the next word. -/
inductive Condition where
  | equals (x nn : UInt8)
  | differs (x nn : UInt8)
  | same (x y : UInt8)
  | distinct (x y : UInt8)
  /-- The key whose number is in `VX` is held down. -/
  | keyDown (x : UInt8)
  | keyUp (x : UInt8)
  deriving Repr, DecidableEq, Inhabited

/-- The two-register operations, which leave their result in `VX`. -/
inductive Combination where
  | copy
  | or
  | and
  | xor
  /-- `VX + VY`, with the carry in `VF`. -/
  | add
  /-- `VX - VY`, with the absence of a borrow in `VF`. -/
  | subtract
  /-- `VY - VX`, with the absence of a borrow in `VF`. -/
  | subtractFrom
  deriving Repr, DecidableEq, Inhabited

/-- One executable operation. -/
inductive Instruction where
  /-- A word of a known group that asks for nothing. -/
  | noop
  | clear
  | ret
  | jump (addr : UInt16)
  | call (addr : UInt16)
  /-- Go on at an address plus `V0`. -/
  | jumpOffset (addr : UInt16)
  /-- Pass over the next word if the condition holds. -/
  | skip (condition : Condition)
  | load (x nn : UInt8)
  /-- Add a byte to `VX`, with no carry. -/
  | addByte (x nn : UInt8)
  | combine (how : Combination) (x y : UInt8)
  /-- Halve `VX`, with the bit shifted out in `VF`. -/
  | shiftRight (x : UInt8)
  /-- Double `VX`, with the bit shifted out in `VF`. -/
  | shiftLeft (x : UInt8)
  | setIndex (addr : UInt16)
  /-- Put a random byte, masked, into `VX`. -/
  | random (x nn : UInt8)
  /-- Draw the `n` rows at `I` as a sprite at `(VX, VY)`, with the collision in `VF`. -/
  | draw (x y n : UInt8)
  | getDelay (x : UInt8)
  /-- Wait for a key and put its number into `VX`. -/
  | awaitKey (x : UInt8)
  | setDelay (x : UInt8)
  | setSound (x : UInt8)
  | addIndex (x : UInt8)
  /-- Point `I` at the glyph of the digit in `VX`. -/
  | glyph (x : UInt8)
  /-- Store the three decimal digits of `VX` from `I` on. -/
  | decimal (x : UInt8)
  /-- Store `V0` to `VX` from `I` on, and move `I` past them. -/
  | storeBlock (x : UInt8)
  /-- Load `V0` to `VX` from `I` on, and move `I` past them. -/
  | loadBlock (x : UInt8)
  deriving Repr, DecidableEq, Inhabited

end Chip8
