import Mathlib.Algebra.GroupWithZero.Nat
import Chip8.Memory.Basic
import Chip8.Processor.Registers

/-!
# Blocks of cells that go round

Memory and registers are rings of cells: behind the last one comes the first again. A block is laid
over the cells from a place on (`overlay`), and a window reads as many cells from a place on
(`window`). As long as a block is no larger than the ring, each of its bytes stays where it was laid
(`getElem_overlay`), so that what is laid over is what a window then shows, and a window laid back
is no change. Reading and writing blocks of memory and of registers is nothing else.
-/

namespace Chip8

namespace Cells

variable {n : Nat} [NeZero n]

/-- Lays a block over the cells from a place on, in order. -/
def overlay (cells : Vector UInt8 n) (i : Fin n) : List UInt8 → Vector UInt8 n
  | [] => cells
  | b :: rest => overlay (cells.set i b i.isLt) (i + 1) rest

/-- As many cells as asked for, from a place on. -/
def window (cells : Vector UInt8 n) (i : Fin n) : Nat → List UInt8
  | 0 => []
  | count + 1 => cells.get i :: window cells (i + 1) count

theorem window_succ (cells : Vector UInt8 n) (i : Fin n) (count : Nat) :
    window cells i (count + 1) = cells[i] :: window cells (i + 1) count :=
  rfl

theorem length_window (cells : Vector UInt8 n) (i : Fin n) (count : Nat) :
    (window cells i count).length = count := by
  induction count generalizing i with
  | zero => rfl
  | succ count ih => rw [window_succ, List.length_cons, ih]

omit [NeZero n] in
theorem getElem_set (cells : Vector UInt8 n) (i p : Fin n) (b : UInt8) :
    (cells.set i b)[p] = if p = i then b else cells[p] := by
  simp only [Fin.getElem_fin, Vector.getElem_set, Fin.ext_iff, eq_comm]

theorem val_succ (i : Fin n) : (i + 1).val = if i.val + 1 < n then i.val + 1 else 0 := by
  have hi := i.isLt
  have hone : (1 : Fin n).val = 1 % n := rfl
  rw [Fin.val_add, hone, Nat.add_mod_mod]
  split
  · rename_i h
    exact Nat.mod_eq_of_lt h
  · have hlast : i.val + 1 = n := by omega
    rw [hlast, Nat.mod_self]

omit [NeZero n] in
/-- How far one place lies behind another. -/
theorem val_sub (p i : Fin n) :
    (p - i).val = if i.val ≤ p.val then p.val - i.val else n - i.val + p.val := by
  have hp := p.isLt
  have hi := i.isLt
  rw [Fin.val_sub]
  split
  · have hsum : n - i.val + p.val = n + (p.val - i.val) := by omega
    rw [hsum, Nat.add_mod_left]
    exact Nat.mod_eq_of_lt (by omega)
  · exact Nat.mod_eq_of_lt (by omega)

theorem val_sub_self (i : Fin n) : (i - i).val = 0 := by
  rw [Fin.sub_self]
  rfl

/-- A place other than the first lies one less behind the next. -/
theorem sub_eq_succ {p i : Fin n} (h : p ≠ i) : (p - i).val = (p - (i + 1)).val + 1 := by
  have hp := p.isLt
  have hi := i.isLt
  have hne : p.val ≠ i.val := fun he => h (Fin.ext he)
  rw [val_sub, val_sub, val_succ]
  grind

/-- The place before the next one lies behind it by the whole ring but one. -/
theorem sub_succ_self (i : Fin n) : (i - (i + 1)).val = n - 1 := by
  have hi := i.isLt
  rw [val_sub, val_succ]
  grind

/-- **Each byte of a block stays where it was laid.** The cell that lies `d` behind the start shows
byte `d` of the block, if there is one, and is untouched otherwise. -/
theorem getElem_overlay {cells : Vector UInt8 n} {i : Fin n} {block : List UInt8}
    (h : block.length ≤ n) (p : Fin n) :
    (overlay cells i block)[p] = (block[(p - i).val]?).getD cells[p] := by
  induction block generalizing cells i with
  | nil => rfl
  | cons b rest ih =>
    rw [List.length_cons] at h
    rw [overlay, ih (by omega), getElem_set]
    by_cases hp : p = i
    · -- the rest does not come round to the first cell again
      subst hp
      have hend : rest[(p - (p + 1)).val]? = none := by
        rw [sub_succ_self]
        exact List.getElem?_eq_none (by omega)
      rw [hend, val_sub_self, if_pos rfl]
      rfl
    · rw [if_neg hp, sub_eq_succ hp, List.getElem?_cons_succ]

/-- What a window shows of a cell: its byte, unless the cell lies behind the window. -/
theorem getElem?_window (cells : Vector UInt8 n) (i p : Fin n) (count : Nat) :
    (window cells i count)[(p - i).val]? =
      if (p - i).val < count then some cells[p] else none := by
  induction count generalizing i with
  | zero => rfl
  | succ count ih =>
    by_cases hp : p = i
    · subst hp
      rw [val_sub_self, if_pos (Nat.succ_pos count)]
      rfl
    · rw [sub_eq_succ hp, window_succ, List.getElem?_cons_succ, ih]
      simp only [Nat.succ_lt_succ_iff]

/-- **What was laid over is what a window then shows.** -/
theorem window_overlay {cells : Vector UInt8 n} {i : Fin n} {block : List UInt8}
    (h : block.length ≤ n) : window (overlay cells i block) i block.length = block := by
  induction block generalizing cells i with
  | nil => rfl
  | cons b rest ih =>
    have hfirst : (overlay cells i (b :: rest))[i] = b := by
      rw [getElem_overlay h, val_sub_self]
      rfl
    rw [List.length_cons] at h ⊢
    rw [window_succ, hfirst, overlay, ih (by omega)]

/-- A window that is laid back is no change. -/
theorem overlay_window (cells : Vector UInt8 n) (i : Fin n) (count : Nat) :
    overlay cells i (window cells i count) = cells := by
  induction count generalizing i with
  | zero => rfl
  | succ count ih =>
    have hsame : cells.set i cells[i] = cells := Vector.set_getElem_self i.isLt
    rw [window_succ, overlay, hsame, ih]

/-- A window of some cells laid over others replaces the ones that it shows. -/
theorem getElem_overlay_window (shown cells : Vector UInt8 n) (i p : Fin n) {count : Nat}
    (h : count ≤ n) :
    (overlay cells i (window shown i count))[p] =
      if (p - i).val < count then shown[p] else cells[p] := by
  rw [getElem_overlay (by rwa [length_window]), getElem?_window]
  split <;> rfl

end Cells

open Cells

namespace Memory

theorem slot_add_one (a : UInt16) : slot (a + 1) = slot a + 1 := by
  rw [slot_succ, Fin.ext_iff, Fin.val_add]
  exact (Nat.mod_add_mod a.toNat memorySize 1).symm

theorem bytes_writeBlock (m : Memory) (a : UInt16) (block : List UInt8) :
    (m.writeBlock a block).bytes = overlay m.bytes (slot a) block := by
  induction block generalizing m a with
  | nil => rfl
  | cons b rest ih =>
    rw [writeBlock, ih, slot_add_one]
    rfl

theorem readBlock_eq_window (m : Memory) (a : UInt16) (count : Nat) :
    m.readBlock a count = window m.bytes (slot a) count := by
  induction count generalizing a with
  | zero => rfl
  | succ count ih =>
    rw [readBlock, ih, slot_add_one]
    rfl

/-- A block that was written is read back, wherever it lies. -/
theorem readBlock_writeBlock (m : Memory) (a : UInt16) {block : List UInt8} {count : Nat}
    (hlength : block.length = count) (h : count ≤ memorySize) :
    (m.writeBlock a block).readBlock a count = block := by
  subst hlength
  rw [readBlock_eq_window, bytes_writeBlock, window_overlay h]

/-- A block written back where it was read is no change. -/
theorem writeBlock_readBlock (m : Memory) (a : UInt16) (count : Nat) :
    m.writeBlock a (m.readBlock a count) = m := by
  have hbytes : (m.writeBlock a (m.readBlock a count)).bytes = m.bytes := by
    rw [bytes_writeBlock, readBlock_eq_window, overlay_window]
  exact congrArg Memory.mk hbytes

end Memory

namespace Registers

theorem cell_add_one (r : UInt8) : cell (r + 1) = cell r + 1 := by
  have hsum : (r + 1).toNat = (r.toNat + 1) % 256 := UInt8.toNat_add r 1
  rw [Fin.ext_iff, Fin.val_add, cell, cell, Fin.val_ofNat, Fin.val_ofNat, hsum]
  show (r.toNat + 1) % 256 % 16 = (r.toNat % 16 + 1) % 16
  omega

theorem cells_setBlock (v : Registers) (r : UInt8) (block : List UInt8) :
    (v.setBlock r block).cells = overlay v.cells (cell r) block := by
  induction block generalizing v r with
  | nil => rfl
  | cons b rest ih =>
    rw [setBlock, ih, cell_add_one]
    rfl

theorem block_eq_window (v : Registers) (r : UInt8) (count : Nat) :
    v.block r count = window v.cells (cell r) count := by
  induction count generalizing r with
  | zero => rfl
  | succ count ih =>
    rw [block, ih, cell_add_one]
    rfl

theorem length_block (v : Registers) (r : UInt8) (count : Nat) :
    (v.block r count).length = count := by
  rw [block_eq_window, length_window]

/-- A block of registers that was set is read back. -/
theorem block_setBlock (v : Registers) (r : UInt8) {block : List UInt8} {count : Nat}
    (hlength : block.length = count) (h : count ≤ 16) :
    (v.setBlock r block).block r count = block := by
  subst hlength
  rw [block_eq_window, cells_setBlock, window_overlay h]

end Registers

end Chip8
