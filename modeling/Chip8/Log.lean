import Chip8.Instruction.Mnemonic
import Chip8.Memory.Program
import Chip8.Text.Quoted

/-!
# The log

What a machine and its devices report while they run, as records; the level and the wording of a
line are functions of its record.
-/

namespace Chip8

/-- How much a line matters. -/
inductive LogLevel where
  | trace
  | debug
  | info
  | warn
  deriving DecidableEq, Repr

def LogLevel.name : LogLevel → String
  | trace => "TRACE"
  | debug => "DEBUG"
  | info => "INFO"
  | warn => "WARN"

inductive LogRecord where
  | loaded (size : Nat)
  /-- The word at the address was decoded and is about to be carried out. -/
  | step (addr word : UInt16) (instruction : Instruction)
  | soundExpired
  | quitWhileWaiting
  | waiting
  /-- A character was typed that no key is mapped to. -/
  | unmapped (typed : Char)
  deriving DecidableEq, Repr

namespace LogRecord

def level : LogRecord → LogLevel
  | loaded _ => .info
  | step _ _ _ => .trace
  | soundExpired | quitWhileWaiting | waiting => .debug
  | unmapped _ => .warn

def text : LogRecord → String
  | loaded size => "loaded " ++ size.repr ++ " byte ROM at " ++ Hex.address programStart
  | step addr word instruction =>
    Hex.address addr ++ "  " ++ Hex.word word ++ "  " ++ instruction.mnemonic
  | soundExpired => "sound timer expired"
  | quitWhileWaiting => "quit while waiting for a key"
  | waiting => "waiting for a key"
  | unmapped typed => "can't map " ++ Quoted.char typed ++ " to a CHIP-8 key"

end LogRecord

end Chip8
