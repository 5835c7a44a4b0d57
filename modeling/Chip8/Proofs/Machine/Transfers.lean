import Chip8.Keypad.Scripted
import Chip8.Proofs.Cells
import Chip8.Proofs.Machine.Effects
import Chip8.Proofs.Machine.MemoryHistory
import Chip8.Proofs.Memory.Aliases

/-!
# Registers to memory and back

Storing a block of registers and loading one count their addresses in two ways, and both go round
the top of memory and the end of the address space. They agree everywhere: what is stored is loaded
back through any alias of the address, what is loaded is stored back without a change, and the
digits of a byte are loaded as the digits that make it up.
-/

namespace Chip8

open Memory (Alias)

namespace Registers

/-- The place of one of the sixteen register numbers. -/
theorem cell_val_of_lt {r : UInt8} (h : r < 16) : (cell r).val = r.toNat :=
  Nat.mod_eq_of_lt h

/-- The first registers of one file laid over another. -/
theorem get_setBlock_block (v w : Registers) {x : UInt8} (hx : x < 16) (r : UInt8) :
    (w.setBlock 0 (v.block 0 (x.toNat + 1))).get r =
      if (cell r).val ≤ x.toNat then v.get r else w.get r := by
  have hfits : x.toNat + 1 ≤ 16 := hx
  have hplace : (cell r - cell 0).val = (cell r).val := by
    have hstart : (cell 0).val = 0 := rfl
    rw [Cells.val_sub, hstart, if_pos (Nat.zero_le _), Nat.sub_zero]
  have hcell := Cells.getElem_overlay_window v.cells w.cells (cell 0) (cell r) hfits
  rw [hplace] at hcell
  simp only [Nat.lt_succ_iff] at hcell
  rw [block_eq_window, get, cells_setBlock]
  exact hcell

theorem get_setBlock_three (v : Registers) (a b c : UInt8) :
    let w := v.setBlock 0 [a, b, c]
    w.get 0 = a ∧ w.get 1 = b ∧ w.get 2 = c := by
  have h10 : cell 1 ≠ cell 0 := by decide
  have h20 : cell 2 ≠ cell 0 := by decide
  have h21 : cell 2 ≠ cell 1 := by decide
  have hset : v.setBlock 0 [a, b, c] = ((v.set 0 a).set 1 b).set 2 c := rfl
  simp only [hset, get_set, h10, h20, h21, ↓reduceIte, and_self]

end Registers

namespace Machine

open Registers

variable {κ ρ : Type} [Keypad κ] [RandomSource ρ]

theorem execute_storeBlock_of_lt (m : Machine κ ρ) {x : UInt8} (hx : x < 16) :
    m.execute (.storeBlock x) = ⟨.proceeds, { m with
      memory := m.memory.writeBlock m.cpu.index (m.cpu.v.block 0 (x.toNat + 1))
      cpu := m.cpu.setIndex (m.cpu.index + x.toUInt16 + 1) }, []⟩ := by
  simp only [execute, storeBlock, hx, ↓reduceIte]
  rfl

/-- The index register moves past the block, modulo the address space. -/
theorem toNat_past_block (a : UInt16) (x : UInt8) :
    (a + x.toUInt16 + 1).toNat = (a.toNat + x.toNat + 1) % 65536 := by
  have hx : x.toUInt16.toNat = x.toNat := UInt8.toNat_toUInt16 x
  rw [UInt16.toNat_add, UInt16.toNat_add, hx]
  show ((a.toNat + x.toNat) % 65536 + 1) % 65536 = _
  omega

/-- The digits of a byte make it up. -/
theorem decimalDigits_sum (b : UInt8) :
    ∃ hundreds tens units : UInt8, decimalDigits b = [hundreds, tens, units] ∧
      hundreds.toNat ≤ 9 ∧ tens.toNat ≤ 9 ∧ units.toNat ≤ 9 ∧
      100 * hundreds.toNat + 10 * tens.toNat + units.toNat = b.toNat := by
  have hb := b.toNat_lt
  refine ⟨_, _, _, decimalDigits_eq b, ?_⟩
  simp only [UInt8.toNat_ofNat']
  omega

/-- Registers that are stored are what is then loaded, from any alias of the address. -/
theorem load_of_stored (m : Machine κ ρ) {x : UInt8} (hx : x < 16) {j : UInt16}
    (hj : Alias m.cpu.index j) :
    (m.execute (.storeBlock x)).machine.memory.readBlock j (x.toNat + 1) =
      m.cpu.v.block 0 (x.toNat + 1) := by
  have hlast : x.toNat < 16 := hx
  have hfits : x.toNat + 1 ≤ memorySize := by
    simp only [memorySize]
    omega
  rw [execute_storeBlock_of_lt m hx, ← hj.readBlock_eq]
  exact m.memory.readBlock_writeBlock m.cpu.index (m.cpu.v.length_block 0 _) hfits

/-- Registers that were loaded are stored back without a change, to any alias of the address. -/
theorem store_of_loaded (m : Machine κ ρ) {x : UInt8} (hx : x < 16) {j : UInt16}
    (hj : Alias m.cpu.index j) :
    let v := (m.execute (.loadBlock x)).machine.cpu.v
    m.memory.writeBlock j (v.block 0 (x.toNat + 1)) = m.memory := by
  intro v
  have hv : v.block 0 (x.toNat + 1) = m.memory.readBlock m.cpu.index (x.toNat + 1) :=
    m.cpu.v.block_setBlock 0 (m.memory.length_readBlock m.cpu.index _) hx
  rw [hv, ← hj.writeBlock_eq, m.memory.writeBlock_readBlock]

/-- **What is stored is loaded back, around every edge.** Take a block of registers, the address at
the index register and any alias of it, for the two to count from. Registers that are stored and
then loaded over others have the values they had at the store, and the others keep theirs; memory is
as the store left it, and the index register is behind the block. Registers that are loaded and then
stored leave memory as it was. And the digits of a byte are loaded as three registers of one digit
each that make up the byte. -/
theorem blocks_go_there_and_back (m : Machine κ ρ) {x : UInt8} (hx : x < 16) {j : UInt16}
    (hj : Alias m.cpu.index j) :
    (∀ w : Registers,
      let stored := m.execute (.storeBlock x)
      let replaced := stored.machine.withCpu { stored.machine.cpu with v := w, index := j }
      let loaded := replaced.execute (.loadBlock x)
      stored.outcome = .proceeds ∧ loaded.outcome = .proceeds ∧
      (∀ r ≤ x, loaded.machine.cpu.v.get r = m.cpu.v.get r) ∧
      (∀ r, x < r → r < 16 → loaded.machine.cpu.v.get r = w.get r) ∧
      loaded.machine.memory = stored.machine.memory ∧
      loaded.machine.cpu.index.toNat = (j.toNat + x.toNat + 1) % 65536) ∧
    (let loaded := m.execute (.loadBlock x)
      let moved := loaded.machine.withCpu (loaded.machine.cpu.setIndex j)
      let stored := moved.execute (.storeBlock x)
      loaded.outcome = .proceeds ∧ stored.outcome = .proceeds ∧
      stored.machine.memory = m.memory) ∧
    (∀ y,
      let split := m.execute (.decimal y)
      let moved := split.machine.withCpu (split.machine.cpu.setIndex j)
      let loaded := moved.execute (.loadBlock 2)
      let digit (r : UInt8) := (loaded.machine.cpu.v.get r).toNat
      split.outcome = .proceeds ∧ loaded.outcome = .proceeds ∧
      digit 0 ≤ 9 ∧ digit 1 ≤ 9 ∧ digit 2 ≤ 9 ∧
      100 * digit 0 + 10 * digit 1 + digit 2 = (m.cpu.v.get y).toNat) := by
  refine ⟨fun w => ?_, ?_, fun y => ?_⟩
  · intro stored replaced loaded
    have hv : loaded.machine.cpu.v = w.setBlock 0 (m.cpu.v.block 0 (x.toNat + 1)) :=
      congrArg (w.setBlock 0) (m.load_of_stored hx hj)
    have hget (r : UInt8) := m.cpu.v.get_setBlock_block w hx r
    refine ⟨?_, rfl, fun r hr => ?_, fun r hxr hr => ?_, rfl, toNat_past_block j x⟩
    · simp only [stored, execute_storeBlock_of_lt m hx]
    · have hle : r.toNat ≤ x.toNat := hr
      have hplace : (cell r).val = r.toNat := cell_val_of_lt (UInt8.lt_of_le_of_lt hr hx)
      rw [hv, hget, if_pos (hplace ▸ hle)]
    · have hlt : x.toNat < r.toNat := hxr
      rw [hv, hget, cell_val_of_lt hr, if_neg (Nat.not_le.mpr hlt)]
  · intro loaded moved stored
    have hstored : stored = moved.execute (.storeBlock x) := rfl
    rw [execute_storeBlock_of_lt moved hx] at hstored
    refine ⟨rfl, ?_, ?_⟩
    · rw [hstored]
    · rw [hstored]
      exact m.store_of_loaded hx hj
  · intro split moved loaded digit
    obtain ⟨hundreds, tens, units, hdigits, hh, ht, hu, hsum⟩ := decimalDigits_sum (m.cpu.v.get y)
    have hbytes : split.machine.memory.readBlock j 3 = [hundreds, tens, units] := by
      rw [← hj.readBlock_eq, ← hdigits]
      exact m.memory.readBlock_writeBlock m.cpu.index rfl (by decide)
    have hv : loaded.machine.cpu.v = m.cpu.v.setBlock 0 [hundreds, tens, units] :=
      congrArg (m.cpu.v.setBlock 0) hbytes
    obtain ⟨h0, h1, h2⟩ := m.cpu.v.get_setBlock_three hundreds tens units
    refine ⟨rfl, rfl, ?_⟩
    simp only [digit, hv, h0, h1, h2]
    exact ⟨hh, ht, hu, hsum⟩

/-- Four registers stored at the top of memory, and loaded from an alias at the end of the address
space. -/
theorem blocks_go_there_and_back_at_top :
    let keys : ScriptedKeys := ⟨[], [], 0, none⟩
    let random : ScriptedRandom := ⟨[], 0⟩
    let m := (fresh keys random).withCpu { (fresh keys random).cpu with
      v := Registers.zeroed.setBlock 0 [1, 2, 3, 4, 5], index := 0x0ffe }
    let stored := (m.execute (.storeBlock 3)).machine
    let replaced := stored.withCpu { stored.cpu with v := .zeroed, index := 0xfffe }
    let loaded := (replaced.execute (.loadBlock 3)).machine
    (3 : UInt8) < 16 ∧ Alias m.cpu.index 0xfffe ∧
      (∀ r ≤ 3, loaded.cpu.v.get r = m.cpu.v.get r) ∧
      (∀ r, 3 < r → r < 16 → loaded.cpu.v.get r = 0) ∧
      loaded.memory.bytes[0] = 3 ∧ loaded.cpu.index.toNat = 2 := by
  intro keys random m stored replaced loaded
  have hx : (3 : UInt8) < 16 := by decide
  have hj : Alias m.cpu.index 0xfffe := by decide
  obtain ⟨-, -, hfirst, hothers, hmemory, hindex⟩ :=
    (blocks_go_there_and_back m hx hj).1 Registers.zeroed
  refine ⟨hx, hj, hfirst, fun r hlow hhigh => ?_, ?_, hindex⟩
  · rw [hothers r hlow hhigh]
    exact Vector.getElem_replicate (cell r).isLt
  · decide +kernel

end Machine

end Chip8
