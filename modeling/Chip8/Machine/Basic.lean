import Chip8.Display.Basic
import Chip8.Keypad.Basic
import Chip8.Processor.Basic
import Chip8.Random

/-!
# The machine

A processor, a memory and a display, with keys, a source of random numbers and a count of beeps.
What a machine does is a `Turn`: how it ended, the machine afterwards and the log lines in order. A
turn that does not proceed still has a machine, from which the session may go on.
-/

namespace Chip8

/-- A machine with keys `κ` and random numbers `ρ`. -/
structure Machine (κ ρ : Type) where
  cpu : Processor
  memory : Memory
  display : Display
  keys : κ
  random : ρ
  /-- How often the sound has been played. -/
  beeps : Nat

inductive Outcome where
  | proceeds
  /-- The user asked to stop while the machine waited for a key. -/
  | quits
  | faults (fault : Fault)
  deriving DecidableEq, Repr

structure Turn (κ ρ : Type) where
  outcome : Outcome
  machine : Machine κ ρ
  log : List LogRecord := []

namespace Machine

variable {κ ρ : Type}

def fresh (keys : κ) (random : ρ) : Machine κ ρ where
  cpu := .startingAt programStart
  memory := .fresh
  display := .fresh
  keys := keys
  random := random
  beeps := 0

def proceed (m : Machine κ ρ) : Turn κ ρ :=
  { outcome := .proceeds, machine := m }

def fail (m : Machine κ ρ) (f : Fault) : Turn κ ρ :=
  { outcome := .faults f, machine := m }

def withCpu (m : Machine κ ρ) (cpu : Processor) : Machine κ ρ :=
  { m with cpu := cpu }

/-- A turn that installs the processor that an operation leaves, and fails if the operation did. -/
def proceedWithCpu (m : Machine κ ρ) (attempt : Except Fault Unit × Processor) : Turn κ ρ :=
  match attempt with
  | (.ok _, cpu) => (m.withCpu cpu).proceed
  | (.error f, cpu) => (m.withCpu cpu).fail f

/-- Loads a program from a source and goes to its start. Registers, stack, timers and picture stay
as they are; a program that cannot be loaded changes nothing. -/
def loadFrom (m : Machine κ ρ) (s : ByteSource) : Turn κ ρ :=
  match m.memory.loadFrom s with
  | .ok (size, memory) =>
    { outcome := .proceeds
      machine := { m with memory := memory, cpu := m.cpu.jump programStart }
      log := [.loaded size] }
  | .error f => m.fail f

def load (m : Machine κ ρ) (program : List UInt8) : Turn κ ρ :=
  m.loadFrom (.ofBytes program)

/-- One frame: both timers count down, and the sound is played once if its timer just ran out. -/
def tick (m : Machine κ ρ) : Turn κ ρ :=
  match m.cpu.tick with
  | (false, cpu) => (m.withCpu cpu).proceed
  | (true, cpu) =>
    { outcome := .proceeds
      machine := { m with cpu := cpu.silence, beeps := m.beeps + 1 }
      log := [.soundExpired] }

end Machine

end Chip8
