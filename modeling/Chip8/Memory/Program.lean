import Chip8.Fault
import Chip8.Memory.Font

/-!
# Programs

A program is a list of bytes, copied to memory at `programStart`. Its size is checked before
anything is copied, so a refused program leaves memory as it was. It may come from a source that
hands it out in chunks and may break off; only a source that ends properly is loaded.
-/

namespace Chip8

/-- Where programs are loaded and start. -/
def programStart : UInt16 := 0x200

/-- The most bytes a program may have: what lies between its start and the top of memory. -/
def programCapacity : Nat := memorySize - programStart.toNat

/-- Something that hands out bytes in chunks, and then ends or breaks off for a reason. -/
structure ByteSource where
  chunks : List (List UInt8)
  /-- Why it breaks off, if it does not end properly. -/
  failure : Option String
  deriving DecidableEq, Repr

namespace ByteSource

/-- A source that ends properly after these bytes. -/
def ofBytes (bytes : List UInt8) : ByteSource :=
  ⟨[bytes], none⟩

/-- All the bytes of a source, unless it breaks off. -/
def contents (s : ByteSource) : Except Fault (List UInt8) :=
  match s.failure with
  | none => .ok s.chunks.flatten
  | some reason => .error (.device reason)

end ByteSource

namespace Memory

/-- Copies a program that fits to its place. -/
def loadProgram (m : Memory) (program : List UInt8) : Except Fault Memory :=
  if program.length ≤ programCapacity then
    .ok (m.writeBlock programStart program)
  else
    .error (.programTooLarge program.length programCapacity)

/-- Loads what a source hands out, and tells its size. -/
def loadFrom (m : Memory) (s : ByteSource) : Except Fault (Nat × Memory) :=
  match s.contents with
  | .error f => .error f
  | .ok program =>
    match m.loadProgram program with
    | .error f => .error f
    | .ok loaded => .ok (program.length, loaded)

end Memory

end Chip8
