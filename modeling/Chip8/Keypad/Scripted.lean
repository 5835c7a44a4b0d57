import Chip8.Keypad.Basic

/-!
# Scripted keys

A keypad that follows a script: fixed keys are held down, waits take keys from a queue and end in a
quit once it is empty, and a quit may be asked for from a given question on.
-/

namespace Chip8

structure ScriptedKeys where
  held : List UInt8
  /-- The keys that waits will take, the next one first. -/
  queue : List UInt8
  asked : Nat := 0
  /-- From which question on, counted from 1, a quit is asked for. -/
  quitFrom : Option Nat := none
  deriving DecidableEq, Repr

namespace ScriptedKeys

/-- Puts more keys behind those in the queue. -/
def enqueue (s : ScriptedKeys) (more : List UInt8) : ScriptedKeys :=
  { s with queue := s.queue ++ more }

/-- Whether the script asks for a quit at a question. -/
def quitsAt (s : ScriptedKeys) (question : Nat) : Bool :=
  match s.quitFrom with
  | none => false
  | some first => first ≤ question

instance : Keypad ScriptedKeys where
  isDown s key := { answer := s.held.contains key, keys := s }
  awaitKey s :=
    match s.queue with
    | [] => { answer := none, keys := s }
    | key :: rest => { answer := some key, keys := { s with queue := rest } }
  quitRequested s :=
    { answer := s.quitsAt (s.asked + 1), keys := { s with asked := s.asked + 1 } }

end ScriptedKeys

end Chip8
