import Mathlib.Data.List.Induction
import Chip8.Proofs.Cells

/-!
# Memory as a record of writes

What is written to memory, in blocks or byte by byte, can be kept as a list of single bytes in the
order they were put. `putAll` carries a list of them out, and every block that is written is such a
list (`writeBlock_eq_putAll`). Afterwards a byte is the one that the latest write to its address put
there (`bytes_putAll`), so the order counts only between writes to one address (`putAll_comm`). A
block that ends below the top of memory meets no byte twice, so it can be read back in place
(`bytes_writeBlock_inside`).
-/

namespace Chip8

namespace Memory

theorem mod_memorySize_lt (n : Nat) : n % memorySize < memorySize :=
  Nat.mod_lt n (by decide)

/-- The byte that a number names, counted modulo the size of memory. -/
def place (n : Nat) : Fin memorySize :=
  ⟨n % memorySize, mod_memorySize_lt n⟩

end Memory

/-- A byte put at one of the addresses of memory. -/
structure ByteWrite where
  addr : Fin memorySize
  byte : UInt8
  deriving DecidableEq, Repr

namespace ByteWrite

/-- The bytes of a block put from an address on: byte `j` at `start + j`, modulo the size of
memory. -/
def placed (start : Nat) (block : List UInt8) : List ByteWrite :=
  block.mapIdx fun j byte => ⟨Memory.place (start + j), byte⟩

/-- What the latest write to an address put there. -/
def latest? (writes : List ByteWrite) (a : Fin memorySize) : Option UInt8 :=
  (writes.reverse.find? fun w => w.addr = a).map (·.byte)

theorem placed_cons (start : Nat) (v : UInt8) (rest : List UInt8) :
    placed start (v :: rest) = ⟨Memory.place start, v⟩ :: placed (start + 1) rest := by
  have hnext : (fun j byte => ByteWrite.mk (Memory.place (start + (j + 1))) byte) =
      fun j byte => ⟨Memory.place (start + 1 + j), byte⟩ := by
    funext j byte
    rw [Nat.add_assoc start 1 j, Nat.add_comm 1 j]
  rw [placed, List.mapIdx_cons, hnext]
  rfl

theorem placed_concat (start : Nat) (block : List UInt8) (v : UInt8) :
    placed start (block ++ [v]) =
      placed start block ++ [⟨Memory.place (start + block.length), v⟩] :=
  List.mapIdx_concat

theorem addr_of_mem_placed {start : Nat} {block : List UInt8} {w : ByteWrite}
    (h : w ∈ placed start block) : ∃ o < block.length, w.addr = Memory.place (start + o) := by
  obtain ⟨o, ho, rfl⟩ := List.mem_mapIdx.mp h
  exact ⟨o, ho, rfl⟩

/-- Starts that differ by the size of memory are the same. -/
theorem placed_congr {start start' : Nat} (h : start % memorySize = start' % memorySize)
    (block : List UInt8) : placed start block = placed start' block := by
  have hplace (j : Nat) : Memory.place (start + j) = Memory.place (start' + j) := by
    apply Fin.ext
    show (start + j) % memorySize = (start' + j) % memorySize
    simp only [memorySize] at h ⊢
    omega
  simp only [placed, hplace]

theorem latest?_concat (writes : List ByteWrite) (w : ByteWrite) (a : Fin memorySize) :
    latest? (writes ++ [w]) a = if w.addr = a then some w.byte else latest? writes a := by
  rw [latest?, List.reverse_append, List.reverse_singleton, List.singleton_append, List.find?_cons]
  by_cases h : w.addr = a
  · simp only [h, decide_true, ↓reduceIte]
    rfl
  · simp only [h, decide_false, ↓reduceIte]
    rfl

theorem latest?_eq_none_iff (writes : List ByteWrite) (a : Fin memorySize) :
    latest? writes a = none ↔ ∀ w ∈ writes, w.addr ≠ a := by
  simp only [latest?, Option.map_eq_none_iff, List.find?_eq_none, List.mem_reverse,
    decide_eq_true_eq]

end ByteWrite

namespace Memory

open ByteWrite Cells

def put (m : Memory) (w : ByteWrite) : Memory :=
  ⟨m.bytes.set w.addr w.byte w.addr.isLt⟩

/-- Carries out writes in order. -/
def putAll (m : Memory) (writes : List ByteWrite) : Memory :=
  writes.foldl put m

theorem putAll_append (m : Memory) (first second : List ByteWrite) :
    m.putAll (first ++ second) = (m.putAll first).putAll second :=
  List.foldl_append

theorem bytes_put (m : Memory) (w : ByteWrite) (a : Fin memorySize) :
    (m.put w).bytes[a] = if w.addr = a then w.byte else m.bytes[a] := by
  simp only [put, Fin.getElem_fin, Vector.getElem_set, Fin.ext_iff]

/-- **The latest write to an address is the one that is seen there.** -/
theorem bytes_putAll (m : Memory) (writes : List ByteWrite) (a : Fin memorySize) :
    (m.putAll writes).bytes[a] = (latest? writes a).getD m.bytes[a] := by
  induction writes using List.reverseRecOn with
  | nil => rfl
  | append_singleton writes w ih =>
    rw [putAll_append, latest?_concat]
    show ((m.putAll writes).put w).bytes[a] = _
    rw [bytes_put, ih]
    split <;> rfl

theorem eq_of_bytes {m m' : Memory} (h : ∀ a : Fin memorySize, m.bytes[a] = m'.bytes[a]) :
    m = m' :=
  congrArg Memory.mk (Vector.ext fun a ha => h ⟨a, ha⟩)

/-- Writes that have no address in common can be carried out in either order. -/
theorem putAll_comm (m : Memory) {first second : List ByteWrite}
    (h : ∀ v ∈ first, ∀ w ∈ second, v.addr ≠ w.addr) :
    (m.putAll first).putAll second = (m.putAll second).putAll first := by
  apply eq_of_bytes
  intro a
  simp only [bytes_putAll]
  by_cases ha : ∃ v ∈ first, v.addr = a
  · obtain ⟨v, hv, rfl⟩ := ha
    have hsecond : latest? second v.addr = none :=
      (latest?_eq_none_iff second v.addr).mpr fun w hw => (h v hv w hw).symm
    rw [hsecond]
    rfl
  · have hfirst : latest? first a = none :=
      (latest?_eq_none_iff first a).mpr fun v hv hva => ha ⟨v, hv, hva⟩
    rw [hfirst]
    rfl

/-- A block is written byte by byte, although its addresses wrap at 65536 and its bytes at 4096. -/
theorem writeBlock_eq_putAll (m : Memory) (a : UInt16) (block : List UInt8) :
    m.writeBlock a block = m.putAll (placed a.toNat block) := by
  induction block generalizing m a with
  | nil => rfl
  | cons v rest ih =>
    have hnext : (a + 1).toNat % memorySize = (a.toNat + 1) % memorySize := by
      have hslot := congrArg Fin.val (slot_succ a)
      rwa [slot, Fin.val_ofNat, Fin.val_ofNat] at hslot
    rw [writeBlock, ih, placed_congr hnext, placed_cons]
    rfl

/-- A block that ends below the top leaves the bytes before and behind it alone. -/
theorem bytes_writeBlock_outside {m : Memory} {a : UInt16} {block : List UInt8}
    (hfits : a.toNat + block.length ≤ memorySize) {p : Fin memorySize}
    (hp : p.val < a.toNat ∨ a.toNat + block.length ≤ p.val) :
    (m.writeBlock a block).bytes[p] = m.bytes[p] := by
  have hbehind : block.length ≤ (p - slot a).val := by
    have hp' := p.isLt
    have hslot : (slot a).val = a.toNat % memorySize := rfl
    rw [val_sub, hslot]
    simp only [memorySize] at hfits hp' ⊢
    split <;> omega
  rw [bytes_writeBlock, getElem_overlay (by omega), List.getElem?_eq_none hbehind]
  rfl

/-- Byte `j` of a block that ends below the top lies `j` behind its start. -/
theorem bytes_writeBlock_inside {m : Memory} {a : UInt16} {block : List UInt8}
    (hfits : a.toNat + block.length ≤ memorySize) {j : Nat} (hj : j < block.length)
    {p : Fin memorySize} (hp : p.val = a.toNat + j) :
    (m.writeBlock a block).bytes[p] = block[j] := by
  have hbehind : (p - slot a).val = j := by
    have hslot : (slot a).val = a.toNat % memorySize := rfl
    rw [val_sub, hslot]
    simp only [memorySize] at hfits ⊢
    split <;> omega
  rw [bytes_writeBlock, getElem_overlay (by omega), hbehind, List.getElem?_eq_getElem hj]
  rfl

end Memory

end Chip8
