import Chip8.Memory.Basic

/-!
# Addresses that are aliases

A 16-bit address names one of 4096 bytes, so sixteen addresses name each. Such aliases stay aliases
whatever is added to them, although the sums wrap at 65536 and the bytes at 4096. Memory cannot tell
them apart, be it read or written, byte by byte or in blocks.
-/

namespace Chip8

namespace Memory

/-- Two addresses that name the same byte: their low twelve bits agree. -/
def Alias (a b : UInt16) : Prop :=
  a.toNat % 4096 = b.toNat % 4096

instance (a b : UInt16) : Decidable (Alias a b) :=
  inferInstanceAs (Decidable (_ = _))

namespace Alias

variable {a b : UInt16}

theorem refl (a : UInt16) : Alias a a :=
  Eq.refl (a.toNat % 4096)

theorem slot_eq (h : Alias a b) : slot a = slot b :=
  (slot_eq_iff a b).mpr h

/-- The sum wraps at 65536, which is a multiple of 4096. -/
theorem add (h : Alias a b) (offset : UInt16) : Alias (a + offset) (b + offset) := by
  have ha : (a + offset).toNat = (a.toNat + offset.toNat) % 65536 := UInt16.toNat_add a offset
  have hb : (b + offset).toNat = (b.toNat + offset.toNat) % 65536 := UInt16.toNat_add b offset
  unfold Alias at h ⊢
  rw [ha, hb]
  omega

theorem read_eq (h : Alias a b) (m : Memory) : m.read a = m.read b :=
  m.read_congr h.slot_eq

theorem readWord_eq (h : Alias a b) (m : Memory) : m.readWord a = m.readWord b := by
  rw [readWord, readWord, h.read_eq, (h.add 1).read_eq]

theorem readBlock_eq (h : Alias a b) (m : Memory) (count : Nat) :
    m.readBlock a count = m.readBlock b count := by
  induction count generalizing a b with
  | zero => rfl
  | succ count ih => rw [readBlock, readBlock, h.read_eq, ih (h.add 1)]

theorem write_eq (h : Alias a b) (m : Memory) (v : UInt8) : m.write a v = m.write b v := by
  simp only [write, h.slot_eq]

theorem writeBlock_eq (h : Alias a b) (m : Memory) (block : List UInt8) :
    m.writeBlock a block = m.writeBlock b block := by
  induction block generalizing m a b with
  | nil => rfl
  | cons v rest ih => rw [writeBlock, writeBlock, h.write_eq, ih (h.add 1)]

end Alias

end Memory

end Chip8
