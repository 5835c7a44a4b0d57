import Chip8.Processor.Basic
import Chip8.Memory.Program

/-!
# Accesses that may miss, and arithmetic that may overflow

The operations on memory, registers, call stack and countdowns once more, with nothing taken for
granted: an index is looked up wherever it points, a slice has to lie within its array, and a number
has to fit its type. `none` is a check that failed. Each operation is followed by what makes its
checks pass, and then it gives what the operation without them gives.
-/

namespace Chip8

/-- Replaces the value at an index. -/
def setAt? {α : Type} {n : Nat} (cells : Vector α n) (i : Nat) (v : α) : Option (Vector α n) :=
  if h : i < n then some (cells.set i v) else none

/-- The first `count` values. -/
def slice? {α : Type} {n : Nat} (cells : Vector α n) (count : Nat) : Option (List α) :=
  if count ≤ n then some (cells.toList.take count) else none

/-- A sum of unsigned numbers below a bound. -/
def add? (bound a b : Nat) : Option Nat :=
  if a + b < bound then some (a + b) else none

/-- A product of unsigned numbers below a bound. -/
def mul? (bound a b : Nat) : Option Nat :=
  if a * b < bound then some (a * b) else none

/-- A difference of unsigned numbers. -/
def sub? (a b : Nat) : Option Nat :=
  if b ≤ a then some (a - b) else none

theorem setAt?_eq {α : Type} {n : Nat} (cells : Vector α n) {i : Nat} (h : i < n) (v : α) :
    setAt? cells i v = some (cells.set i v) :=
  dif_pos h

theorem slice?_eq {α : Type} {n : Nat} (cells : Vector α n) {count : Nat} (h : count ≤ n) :
    slice? cells count = some (cells.toList.take count) :=
  if_pos h

theorem add?_eq {bound a b : Nat} (h : a + b < bound) : add? bound a b = some (a + b) :=
  if_pos h

theorem mul?_eq {bound a b : Nat} (h : a * b < bound) : mul? bound a b = some (a * b) :=
  if_pos h

theorem sub?_eq {a b : Nat} (h : b ≤ a) : sub? a b = some (a - b) :=
  if_pos h

/-- Whatever the size of an address, small numbers fit. -/
theorem lt_usize {n : Nat} (h : n < 4294967296) : n < USize.size :=
  Nat.lt_of_lt_of_le h USize.le_size

namespace Memory

/-- `read`, with the index of the byte looked up. -/
def read? (m : Memory) (a : UInt16) : Option UInt8 :=
  m.bytes[a.toNat % memorySize]?

/-- `write`, with the index of the byte looked up. -/
def write? (m : Memory) (a : UInt16) (v : UInt8) : Option Memory :=
  (setAt? m.bytes (a.toNat % memorySize) v).map Memory.mk

def readWord? (m : Memory) (a : UInt16) : Option UInt16 := do
  let high ← m.read? a
  let low ← m.read? (a + 1)
  some ((high.toUInt16 <<< 8) ||| low.toUInt16)

def readBlock? (m : Memory) (a : UInt16) : Nat → Option (List UInt8)
  | 0 => some []
  | count + 1 => do
    let v ← m.read? a
    let rest ← m.readBlock? (a + 1) count
    some (v :: rest)

def writeBlock? (m : Memory) (a : UInt16) : List UInt8 → Option Memory
  | [] => some m
  | v :: rest => do
    let written ← m.write? a v
    written.writeBlock? (a + 1) rest

def loadFrom? (m : Memory) (s : ByteSource) : Option (Except Fault (Nat × Memory)) :=
  match s.contents with
  | .error f => some (.error f)
  | .ok program =>
    if program.length ≤ programCapacity then do
      let loaded ← m.writeBlock? programStart program
      some (.ok (program.length, loaded))
    else
      some (.error (.programTooLarge program.length programCapacity))

/-- The remainder by the size of the memory is an index of it. -/
theorem index_lt (a : UInt16) : a.toNat % memorySize < memorySize :=
  Nat.mod_lt _ (by decide)

@[simp] theorem read?_eq (m : Memory) (a : UInt16) : m.read? a = some (m.read a) :=
  Vector.getElem?_eq_getElem (index_lt a)

@[simp] theorem write?_eq (m : Memory) (a : UInt16) (v : UInt8) :
    m.write? a v = some (m.write a v) := by
  rw [write?, setAt?_eq _ (index_lt a)]
  rfl

@[simp] theorem readWord?_eq (m : Memory) (a : UInt16) : m.readWord? a = some (m.readWord a) := by
  simp only [readWord?, read?_eq]
  rfl

@[simp] theorem readBlock?_eq (m : Memory) (a : UInt16) (count : Nat) :
    m.readBlock? a count = some (m.readBlock a count) := by
  induction count generalizing a with
  | zero => rfl
  | succ count ih =>
    simp only [readBlock?, read?_eq, ih]
    rfl

@[simp] theorem writeBlock?_eq (m : Memory) (a : UInt16) (block : List UInt8) :
    m.writeBlock? a block = some (m.writeBlock a block) := by
  induction block generalizing m a with
  | nil => rfl
  | cons v rest ih =>
    rw [writeBlock?, write?_eq]
    exact ih (m.write a v) (a + 1)

theorem loadFrom?_eq (m : Memory) (s : ByteSource) : m.loadFrom? s = some (m.loadFrom s) := by
  unfold loadFrom? loadFrom loadProgram
  cases s.contents with
  | error f => rfl
  | ok program =>
    by_cases h : program.length ≤ programCapacity
    · simp only [h, ↓reduceIte, writeBlock?_eq]
      rfl
    · simp only [h, ↓reduceIte]

end Memory

namespace Registers

/-- `get`, with the index of the register looked up. -/
def get? (v : Registers) (r : UInt8) : Option UInt8 :=
  v.cells[r.toNat &&& 0xf]?

/-- `set`, with the index of the register looked up. -/
def set? (v : Registers) (r b : UInt8) : Option Registers :=
  (setAt? v.cells (r.toNat &&& 0xf) b).map Registers.mk

def combine? (v : Registers) (how : Combination) (x y : UInt8) : Option Registers := do
  let vx ← v.get? x
  let vy ← v.get? y
  match combination how vx vy with
  | (result, none) => v.set? x result
  | (result, some raised) =>
    let flagged ← v.set? flag raised.toUInt8
    flagged.set? x result

def addByte? (v : Registers) (x b : UInt8) : Option Registers := do
  let vx ← v.get? x
  v.set? x (vx + b)

/-- A shift: a bit of `VX` to the flag, then `VX` shifted. -/
def shift? (v : Registers) (x : UInt8) (bit shifted : UInt8 → UInt8) : Option Registers := do
  let vx ← v.get? x
  let flagged ← v.set? flag (bit vx)
  let vx ← flagged.get? x
  flagged.set? x (shifted vx)

def setBlock? (v : Registers) (r : UInt8) : List UInt8 → Option Registers
  | [] => some v
  | b :: rest => do
    let written ← v.set? r b
    written.setBlock? (r + 1) rest

/-- Masking a register number with a nibble is what `cell` does. -/
theorem mask_eq (r : UInt8) : r.toNat &&& 0xf = (cell r).val :=
  Nat.and_two_pow_sub_one_eq_mod r.toNat 4

@[simp] theorem get?_eq (v : Registers) (r : UInt8) : v.get? r = some (v.get r) := by
  rw [get?, mask_eq]
  exact Vector.getElem?_eq_getElem (cell r).isLt

@[simp] theorem set?_eq (v : Registers) (r b : UInt8) : v.set? r b = some (v.set r b) := by
  rw [set?, mask_eq, setAt?_eq _ (cell r).isLt]
  rfl

@[simp] theorem combine?_eq (v : Registers) (how : Combination) (x y : UInt8) :
    v.combine? how x y = some (v.combine how x y) := by
  simp only [combine?, combine, get?_eq, Option.bind_eq_bind, Option.bind_some]
  rcases combination how (v.get x) (v.get y) with ⟨result, _ | raised⟩
  · exact set?_eq v x result
  · simp only [set?_eq, Option.bind_some]
    rfl

@[simp] theorem addByte?_eq (v : Registers) (x b : UInt8) :
    v.addByte? x b = some (v.addByte x b) := by
  simp only [addByte?, get?_eq, set?_eq, Option.bind_eq_bind, Option.bind_some]
  rfl

@[simp] theorem shift?_eq (v : Registers) (x : UInt8) (bit shifted : UInt8 → UInt8) :
    v.shift? x bit shifted =
      let flagged := v.set flag (bit (v.get x))
      some (flagged.set x (shifted (flagged.get x))) := by
  simp only [shift?, get?_eq, set?_eq, Option.bind_eq_bind, Option.bind_some]

@[simp] theorem setBlock?_eq (v : Registers) (r : UInt8) (block : List UInt8) :
    v.setBlock? r block = some (v.setBlock r block) := by
  induction block generalizing v r with
  | nil => rfl
  | cons b rest ih =>
    rw [setBlock?, set?_eq]
    exact ih (v.set r b) (r + 1)

/-- Registers read one by one are a piece of the register file, if they do not run past its end. -/
theorem block_eq_take (v : Registers) (r : UInt8) (count : Nat) (h : r.toNat + count ≤ 16) :
    v.block r count = (v.cells.toList.drop r.toNat).take count := by
  induction count generalizing r with
  | zero => rfl
  | succ count ih =>
    have hr : r.toNat < v.cells.toList.length := by
      rw [Vector.length_toList]
      omega
    have hcell : (cell r).val = r.toNat := Nat.mod_eq_of_lt (by omega)
    have hnext : (r + 1).toNat = r.toNat + 1 := by
      rw [UInt8.toNat_add]
      exact Nat.mod_eq_of_lt (by show r.toNat + 1 < 256; omega)
    rw [block, ih (r + 1) (by omega), List.drop_eq_getElem_cons hr, List.take_succ_cons, hnext]
    have hget : v.get r = v.cells.toList[r.toNat] := by
      simp only [get, Fin.getElem_fin, hcell, Vector.getElem_toList]
    rw [hget]

theorem slice?_cells (v : Registers) {count : Nat} (h : count ≤ 16) :
    slice? v.cells count = some (v.block 0 count) := by
  rw [slice?_eq _ h, block_eq_take v 0 count (by rw [UInt8.toNat_zero]; omega)]
  rfl

end Registers

namespace CallStack

def push? (s : CallStack) (addr : UInt16) : Option (Except Fault CallStack) :=
  if depth ≤ s.size then
    some (.error (.stackOverflow addr))
  else do
    let slots ← setAt? s.slots s.size addr
    let size ← add? USize.size s.size 1
    some (.ok ⟨slots, size⟩)

def pop? (s : CallStack) : Option (Except Fault (UInt16 × CallStack)) :=
  if s.size = 0 then
    some (.error .stackUnderflow)
  else do
    let top ← sub? s.size 1
    let addr ← s.slots[top]?
    some (.ok (addr, { s with size := top }))

theorem push?_eq (s : CallStack) (addr : UInt16) : s.push? addr = some (s.push addr) := by
  unfold push? push
  by_cases h : s.size < depth
  · have hfits : s.size + 1 < USize.size := lt_usize (by simp only [depth] at h; omega)
    simp only [Nat.not_le.mpr h, h, ↓reduceIte, ↓reduceDIte, setAt?_eq _ h, add?_eq hfits,
      Option.bind_eq_bind, Option.bind_some]
  · simp only [Nat.not_lt.mp h, h, ↓reduceIte, ↓reduceDIte]

/-- A pop finds its slot if the stack is within its slots. -/
theorem pop?_eq {s : CallStack} (h : s.size ≤ depth) : s.pop? = some s.pop := by
  unfold pop? pop
  rcases hs : s.size with _ | top
  · simp only [↓reduceIte]
  · have htop : top < depth := by omega
    have hsub : sub? (top + 1) 1 = some top := sub?_eq (Nat.le_add_left 1 top)
    simp only [Nat.add_one_ne_zero, ↓reduceIte, hsub, htop, ↓reduceDIte, Option.bind_eq_bind,
      Option.bind_some, Vector.getElem?_eq_getElem htop]

end CallStack

namespace Countdown

def tick? (c : Countdown) : Option (Bool × Countdown) :=
  if c.completed || c.value == 0 then
    some (false, c)
  else do
    let left ← sub? c.value.toNat 1
    let next := ofValue (.ofNat left)
    some (next.completed, next)

theorem tick?_eq (c : Countdown) : c.tick? = some c.tick := by
  unfold tick? tick
  split
  · rfl
  · rename_i h
    have hpos := pos_of_running h
    have hleft : UInt8.ofNat (c.value.toNat - 1) = c.value - 1 := by
      rw [← UInt8.toNat_inj, UInt8.toNat_ofNat', UInt8.toNat_sub_of_le _ _ hpos]
      exact Nat.mod_eq_of_lt (Nat.lt_of_le_of_lt (Nat.sub_le _ _) c.value.toNat_lt)
    simp only [sub?_eq hpos, hleft, Option.bind_eq_bind, Option.bind_some]

end Countdown

end Chip8
