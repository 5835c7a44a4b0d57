/-!
# Memory

4096 bytes behind 16-bit addresses. Only the low twelve bits of an address count, so an address
past the top comes back in at the bottom and no access can fail. Words and blocks are read and
written byte by byte.
-/

namespace Chip8

abbrev memorySize : Nat := 4096

structure Memory where
  bytes : Vector UInt8 memorySize
  deriving DecidableEq, Repr

namespace Memory

/-- The byte that an address names: its low twelve bits. -/
def slot (a : UInt16) : Fin memorySize :=
  Fin.ofNat memorySize a.toNat

def zeroed : Memory :=
  ⟨.replicate memorySize 0⟩

def read (m : Memory) (a : UInt16) : UInt8 :=
  m.bytes[slot a]

def write (m : Memory) (a : UInt16) (v : UInt8) : Memory :=
  ⟨m.bytes.set (slot a) v (slot a).isLt⟩

/-- The big-endian word of the bytes at an address and at the next one. -/
def readWord (m : Memory) (a : UInt16) : UInt16 :=
  ((m.read a).toUInt16 <<< 8) ||| (m.read (a + 1)).toUInt16

/-- The bytes at `count` addresses from `a` on. -/
def readBlock (m : Memory) (a : UInt16) : Nat → List UInt8
  | 0 => []
  | count + 1 => m.read a :: m.readBlock (a + 1) count

/-- Puts bytes at consecutive addresses, in order: of two that meet in one slot the later stays. -/
def writeBlock (m : Memory) (a : UInt16) : List UInt8 → Memory
  | [] => m
  | v :: rest => (m.write a v).writeBlock (a + 1) rest

/-- Two addresses share a slot if they agree in their low twelve bits. -/
theorem slot_eq_iff (a b : UInt16) : slot a = slot b ↔ a.toNat % 4096 = b.toNat % 4096 := by
  simp only [slot, Fin.ext_iff, Fin.val_ofNat]

theorem read_congr (m : Memory) {a b : UInt16} (h : slot a = slot b) : m.read a = m.read b := by
  simp only [read, h]

/-- The address after another names the next slot, after the top one the lowest. -/
theorem slot_succ (a : UInt16) : slot (a + 1) = Fin.ofNat memorySize (a.toNat + 1) := by
  have hsum : (a + 1).toNat = (a.toNat + 1) % 65536 := UInt16.toNat_add a 1
  rw [slot, Fin.ext_iff, Fin.val_ofNat, Fin.val_ofNat, hsum, memorySize]
  omega

/-- A word is made of the bytes of two neighbouring slots, the high byte first. -/
theorem toNat_readWord (m : Memory) (a : UInt16) :
    (m.readWord a).toNat = 0x100 * (m.bytes[Fin.ofNat memorySize a.toNat]).toNat +
      (m.bytes[Fin.ofNat memorySize (a.toNat + 1)]).toNat := by
  have hlow : (m.read (a + 1)).toNat < 2 ^ 8 := (m.read (a + 1)).toNat_lt
  have hhigh : (m.read a).toNat < 2 ^ 8 := (m.read a).toNat_lt
  have hfits : (m.read a).toNat <<< 8 < 2 ^ 16 := by
    rw [Nat.shiftLeft_eq]
    omega
  have hword : (m.readWord a).toNat =
      (m.read a).toNat <<< 8 ||| (m.read (a + 1)).toNat := by
    simp only [readWord, UInt16.toNat_or, UInt16.toNat_shiftLeft, UInt8.toNat_toUInt16]
    exact congrArg (· ||| _) (Nat.mod_eq_of_lt hfits)
  have hnext : m.read (a + 1) = m.bytes[Fin.ofNat memorySize (a.toNat + 1)] :=
    congrArg (fun s : Fin memorySize => m.bytes[s]) (slot_succ a)
  rw [hword, ← Nat.shiftLeft_add_eq_or_of_lt hlow, Nat.shiftLeft_eq, Nat.mul_comm, hnext]
  rfl

theorem length_readBlock (m : Memory) (a : UInt16) (count : Nat) :
    (m.readBlock a count).length = count := by
  induction count generalizing a with
  | zero => rfl
  | succ count ih => simp [readBlock, ih]

end Memory

end Chip8
