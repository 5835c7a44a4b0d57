import Chip8.Display.Mode
import Chip8.Text.Hex

/-!
# Faults

Everything that stops a machine, as causes. The wording stands in `Fault.message` alone.
-/

namespace Chip8

inductive Fault where
  /-- The program has `size` bytes, and at most `capacity` fit above its start. -/
  | programTooLarge (size capacity : Nat)
  | unsupportedWord (word : UInt16)
  | unsupportedMode (mode : DisplayMode)
  /-- Every return slot was in use when this address was called or pushed. -/
  | stackOverflow (addr : UInt16)
  | stackUnderflow
  /-- A register block that reaches beyond the last register. No decoded word asks for one. -/
  | noSuchRegister (last : UInt8)
  /-- A sprite with more rows than a word can ask for. -/
  | spriteTooTall (rows : UInt8)
  /-- A return from a slot that does not exist. No session leads there. -/
  | noSuchSlot (slot : Nat)
  | device (reason : String)
  deriving Repr, DecidableEq, Inhabited

def Fault.message : Fault → String
  | programTooLarge size capacity =>
    "ROM is too large (" ++ size.repr ++ " bytes), at most " ++ capacity.repr ++
      " bytes fit in program space"
  | unsupportedWord word => "unsupported opcode 0x" ++ Hex.word word
  | unsupportedMode mode => "display mode " ++ mode.name ++ " is not supported"
  | stackOverflow addr =>
    "stack overflow calling " ++ Hex.address addr ++ ": all 16 return slots are in use"
  | stackUnderflow => "stack underflow: returned from a subroutine with an empty call stack"
  | noSuchRegister last => "there is no register " ++ Hex.register last
  | spriteTooTall rows => "a sprite cannot have " ++ rows.toNat.repr ++ " rows"
  | noSuchSlot slot => "there is no return slot " ++ slot.repr
  | device reason => reason

end Chip8
