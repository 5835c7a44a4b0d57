import Chip8.Instruction.Basic

/-!
# Registers

The sixteen byte registers. A register number counts modulo 16, so that any byte names one, and
the last register, `VF`, doubles as the flag of arithmetic. Where an operation yields a result and
a flag, the flag is written first: with `VF` as the target of an addition or a subtraction the
result stays. A shift reads its operand again after the flag is written, so a shift of `VF` shifts
the flag.
-/

namespace Chip8

structure Registers where
  cells : Vector UInt8 16
  deriving DecidableEq, Repr

namespace Registers

/-- The cell that a register number names: its low nibble. -/
def cell (r : UInt8) : Fin 16 :=
  Fin.ofNat 16 r.toNat

def flag : UInt8 := 0xf

def zeroed : Registers :=
  ⟨.replicate 16 0⟩

def get (v : Registers) (r : UInt8) : UInt8 :=
  v.cells[cell r]

def set (v : Registers) (r b : UInt8) : Registers :=
  ⟨v.cells.set (cell r) b (cell r).isLt⟩

def setFlag (v : Registers) (raised : Bool) : Registers :=
  v.set flag raised.toUInt8

/-- A write is seen under every number of its register, and nowhere else. -/
theorem get_set (v : Registers) (r s b : UInt8) :
    (v.set r b).get s = if cell r = cell s then b else v.get s := by
  simp only [get, set, Fin.getElem_fin, Vector.getElem_set, Fin.ext_iff]

theorem get_set_self (v : Registers) (r b : UInt8) : (v.set r b).get r = b := by
  rw [get_set, if_pos rfl]

/-- `VX` combined with `VY`: the result, and the flag for the operations that have one. -/
def combination (how : Combination) (a b : UInt8) : UInt8 × Option Bool :=
  match how with
  | .copy => (b, none)
  | .or => (a ||| b, none)
  | .and => (a &&& b, none)
  | .xor => (a ^^^ b, none)
  | .add => (a + b, some (a.toNat + b.toNat ≥ 256))
  | .subtract => (a - b, some (b ≤ a))
  | .subtractFrom => (b - a, some (a ≤ b))

/-- Carries out a two-register operation on the values before it. -/
def combine (v : Registers) (how : Combination) (x y : UInt8) : Registers :=
  match combination how (v.get x) (v.get y) with
  | (result, none) => v.set x result
  | (result, some raised) => (v.setFlag raised).set x result

def addByte (v : Registers) (x b : UInt8) : Registers :=
  v.set x (v.get x + b)

/-- Puts the low bit of `VX` into the flag, then halves `VX`. -/
def shiftRight (v : Registers) (x : UInt8) : Registers :=
  let flagged := v.set flag (v.get x &&& 1)
  flagged.set x (flagged.get x >>> 1)

/-- Puts the high bit of `VX` into the flag, then doubles `VX`. -/
def shiftLeft (v : Registers) (x : UInt8) : Registers :=
  let flagged := v.set flag ((v.get x &&& 0x80) >>> 7)
  flagged.set x (flagged.get x <<< 1)

/-- The registers from `r` on, `count` of them. -/
def block (v : Registers) (r : UInt8) : Nat → List UInt8
  | 0 => []
  | count + 1 => v.get r :: v.block (r + 1) count

/-- Puts bytes into consecutive registers from `r` on, in order. -/
def setBlock (v : Registers) (r : UInt8) : List UInt8 → Registers
  | [] => v
  | b :: rest => (v.set r b).setBlock (r + 1) rest

end Registers

end Chip8
