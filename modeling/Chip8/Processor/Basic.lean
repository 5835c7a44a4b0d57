import Chip8.Countdown
import Chip8.Memory.Basic
import Chip8.Processor.CallStack
import Chip8.Processor.Registers

/-!
# The processor

The state of a machine that is neither memory nor picture: registers, the index register, the
program counter, the call stack and the two countdowns. Addresses wrap at 16 bits. An operation that
can fail gives its result, or a fault, beside the processor that it leaves.
-/

namespace Chip8

structure Processor where
  v : Registers
  /-- The index register `I`. -/
  index : UInt16
  /-- The address of the next word. -/
  pc : UInt16
  stack : CallStack
  delay : Countdown
  sound : Countdown
  deriving DecidableEq, Repr

namespace Processor

def wordSize : UInt16 := 2

/-- A processor about to start the program at `start`. -/
def startingAt (start : UInt16) : Processor where
  v := .zeroed
  index := 0
  pc := start
  stack := .empty
  delay := .expired
  sound := .expired

def jump (p : Processor) (addr : UInt16) : Processor :=
  { p with pc := addr }

def jumpOffset (p : Processor) (addr : UInt16) : Processor :=
  p.jump (addr + (p.v.get 0).toUInt16)

def advance (p : Processor) : Processor :=
  p.jump (p.pc + wordSize)

def skipIf (p : Processor) (condition : Bool) : Processor :=
  if condition then p.advance else p

/-- The word at the program counter, and the processor that has moved past it. -/
def fetch (p : Processor) (m : Memory) : UInt16 × Processor :=
  (m.readWord p.pc, p.advance)

/-- Pushes an address; a full stack is a fault at that address. -/
def push (p : Processor) (addr : UInt16) : Except Fault Unit × Processor :=
  match p.stack.push addr with
  | .ok stack => (.ok (), { p with stack := stack })
  | .error f => (.error f, p)

def pop (p : Processor) : Except Fault UInt16 × Processor :=
  match p.stack.pop with
  | .ok (addr, stack) => (.ok addr, { p with stack := stack })
  | .error f => (.error f, p)

/-- Calls the subroutine at an address. The program counter is already past the call, so it is
the return address; a full stack is a fault at the address called. -/
def call (p : Processor) (addr : UInt16) : Except Fault Unit × Processor :=
  match p.push p.pc with
  | (.ok _, q) => (.ok (), q.jump addr)
  | (.error _, q) => (.error (.stackOverflow addr), q)

def ret (p : Processor) : Except Fault Unit × Processor :=
  match p.pop with
  | (.ok addr, q) => (.ok (), q.jump addr)
  | (.error f, q) => (.error f, q)

def setV (p : Processor) (r b : UInt8) : Processor :=
  { p with v := p.v.set r b }

def setIndex (p : Processor) (addr : UInt16) : Processor :=
  { p with index := addr }

def setDelay (p : Processor) (b : UInt8) : Processor :=
  { p with delay := .ofValue b }

def setSound (p : Processor) (b : UInt8) : Processor :=
  { p with sound := .ofValue b }

def silence (p : Processor) : Processor :=
  { p with sound := .expired }

/-- Counts both timers down by one frame, and tells whether the sound timer ran out on it. -/
def tick (p : Processor) : Bool × Processor :=
  let (_, delay) := p.delay.tick
  let (expired, sound) := p.sound.tick
  (expired, { p with delay := delay, sound := sound })

end Processor

end Chip8
