import Chip8.Instruction.Decode
import Chip8.Machine.Execute

/-!
# Steps and sessions

A step fetches the word at the program counter, moves past it, decodes it and carries it out. A
session is a list of actions on one machine: loads, steps and frames in any order. It goes on after
an action that failed or quit, from the machine that the action left.
-/

namespace Chip8

inductive Action where
  | load (source : ByteSource)
  | step
  | tick
  deriving DecidableEq, Repr

namespace Machine

variable {κ ρ : Type} [Keypad κ] [RandomSource ρ]

/-- The word that the next step will fetch. -/
def nextWord (m : Machine κ ρ) : UInt16 :=
  m.memory.readWord m.cpu.pc

/-- Fetches, decodes and carries out one instruction. An unsupported word fails before it is
logged; every other step is logged first, with the address of its word. -/
def step (m : Machine κ ρ) : Turn κ ρ :=
  let (word, cpu) := m.cpu.fetch m.memory
  match Instruction.ofWord? word with
  | none => (m.withCpu cpu).fail (.unsupportedWord word)
  | some instruction =>
    let turn := (m.withCpu cpu).execute instruction
    { turn with log := .step m.cpu.pc word instruction :: turn.log }

def act (m : Machine κ ρ) : Action → Turn κ ρ
  | .load source => m.loadFrom source
  | .step => m.step
  | .tick => m.tick

def turns (m : Machine κ ρ) : List Action → List (Turn κ ρ)
  | [] => []
  | action :: rest => m.act action :: (m.act action).machine.turns rest

def after (m : Machine κ ρ) : List Action → Machine κ ρ
  | [] => m
  | action :: rest => (m.act action).machine.after rest

end Machine

end Chip8
