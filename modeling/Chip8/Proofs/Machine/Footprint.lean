import Chip8.Proofs.Machine.Calls
import Chip8.Proofs.Machine.Transfers

/-!
# What a step may change

For each part of a machine, the words whose steps may change it. `MayChange` lists them for the
registers, from the digits of the word, and `nextIndex` gives the index register outright. Whatever
is not listed a step leaves as it was, however it ends.
-/

namespace Chip8

namespace Registers

theorem cells_set_of_ne (v : Registers) {x b : UInt8} {r : Fin 16} (h : r ≠ cell x) :
    (v.set x b).cells[r] = v.cells[r] := by
  rw [set, Cells.getElem_set, if_neg h]

/-- Of the operations on two registers, the three with a carry or a borrow change the flag. -/
theorem cells_combine_of_ne (v : Registers) {how : Combination} {x y : UInt8} {r : Fin 16}
    (hx : r ≠ cell x) (hflag : how ∈ [.add, .subtract, .subtractFrom] → r ≠ cell flag) :
    (v.combine how x y).cells[r] = v.cells[r] := by
  have hflagged (raised : Bool) (b : UInt8) (hf : r ≠ cell flag) :
      ((v.setFlag raised).set x b).cells[r] = v.cells[r] :=
    (cells_set_of_ne _ hx).trans (v.cells_set_of_ne hf)
  cases how with
  | add => exact hflagged _ _ (hflag (by decide))
  | subtract => exact hflagged _ _ (hflag (by decide))
  | subtractFrom => exact hflagged _ _ (hflag (by decide))
  | _ => exact v.cells_set_of_ne hx

/-- Registers behind a block keep their values. -/
theorem cells_setBlock_of_le (v : Registers) {block : List UInt8} {r : Fin 16}
    (h : block.length ≤ r.val) : (v.setBlock 0 block).cells[r] = v.cells[r] := by
  have hplace : (r - cell 0).val = r.val := by
    rw [Cells.val_sub]
    rfl
  have hfits : block.length ≤ 16 := by omega
  rw [cells_setBlock, Cells.getElem_overlay hfits, hplace, List.getElem?_eq_none h]
  rfl

end Registers

open Registers

/-- The registers that an instruction may change. -/
def Instruction.Touches (r : Fin 16) : Instruction → Prop
  | .load x _ | .addByte x _ | .random x _ | .getDelay x | .awaitKey x => r = cell x
  | .combine how x _ => r = cell x ∨ (r = cell flag ∧ how ∈ [.add, .subtract, .subtractFrom])
  | .shiftRight x | .shiftLeft x => r = cell x ∨ r = cell flag
  | .draw _ _ _ => r = cell flag
  | .loadBlock x => r.val ≤ x.toNat
  | _ => False

/-- The instructions that set the index register. -/
def Instruction.Points : Instruction → Prop
  | .setIndex _ | .addIndex _ | .glyph _ | .storeBlock _ | .loadBlock _ => True
  | _ => False

/-- The registers that the step of a word may change, told from its digits. -/
def MayChange (w : Nat) (r : Fin 16) : Prop :=
  (r.val = w / 0x100 % 0x10 ∧
    (w / 0x1000 ∈ [0x6, 0x7, 0xc] ∨
      (w / 0x1000 = 0x8 ∧ w % 0x10 ∈ [0x0, 0x1, 0x2, 0x3, 0x4, 0x5, 0x6, 0x7, 0xe]) ∨
      (w / 0x1000 = 0xf ∧ w % 0x100 ∈ [0x07, 0x0a]))) ∨
  (r.val = 0xf ∧
    ((w / 0x1000 = 0x8 ∧ w % 0x10 ∈ [0x4, 0x5, 0x6, 0x7, 0xe]) ∨ w / 0x1000 = 0xd)) ∨
  (r.val ≤ w / 0x100 % 0x10 ∧ w / 0x1000 = 0xf ∧ w % 0x100 = 0x65)

/-- Operations on bits, sums with a byte and sums with the index register raise no flag. -/
theorem not_mayChange_flag {w : Nat}
    (h : (((w / 0x1000 = 0x8 ∧ w % 0x10 ∈ [0x1, 0x2, 0x3]) ∨ w / 0x1000 = 0x7) ∧
      w / 0x100 % 0x10 ≠ 0xf) ∨ (w / 0x1000 = 0xf ∧ w % 0x100 = 0x1e)) :
    ¬ MayChange w (cell flag) := by
  have hflag : (cell flag).val = 0xf := rfl
  simp only [List.mem_cons, List.not_mem_nil, or_false] at h
  simp only [MayChange, hflag, List.mem_cons, List.not_mem_nil, or_false]
  omega

/-- What an instruction may change, its words may change. -/
theorem mayChange_of_touches {w : UInt16} {i : Instruction} {r : Fin 16}
    (hcode : (Fields.ofWord w).Encodes i) (h : i.Touches r) : MayChange w.toNat r := by
  have hgroup (g : UInt8) := (Fields.group_eq_iff w g).mp
  have hlow (b : UInt8) := (Fields.nn_eq_iff w b).mp
  have hnibble (b : UInt8) := (Fields.n_eq_iff w b).mp
  have hx : (cell (Fields.ofWord w).x).val = w.toNat / 0x100 % 0x10 := by
    show (Fields.ofWord w).x.toNat % 16 = w.toNat / 0x100 % 0x10
    rw [Fields.x_toNat, Nat.mod_mod]
  cases i with
  | load x nn =>
    obtain ⟨hg, rfl, rfl⟩ := hcode
    exact .inl ⟨h ▸ hx, .inl (by rw [hgroup 0x6 hg]; decide)⟩
  | addByte x nn =>
    obtain ⟨hg, rfl, rfl⟩ := hcode
    exact .inl ⟨h ▸ hx, .inl (by rw [hgroup 0x7 hg]; decide)⟩
  | random x nn =>
    obtain ⟨hg, rfl, rfl⟩ := hcode
    exact .inl ⟨h ▸ hx, .inl (by rw [hgroup 0xc hg]; decide)⟩
  | combine how x y =>
    obtain ⟨hg, hn, rfl, rfl⟩ := hcode
    rcases h with rfl | ⟨rfl, hhow⟩
    · refine .inl ⟨hx, .inr (.inl ⟨hgroup 0x8 hg, ?_⟩)⟩
      rw [hnibble _ hn]
      cases how <;> decide
    · refine .inr (.inl ⟨rfl, .inl ⟨hgroup 0x8 hg, ?_⟩⟩)
      rw [hnibble _ hn]
      revert hhow
      cases how <;> decide
  | shiftRight x =>
    obtain ⟨hg, hn, rfl⟩ := hcode
    replace hn : w.toNat % 0x10 = 0x6 := hnibble _ hn
    rcases h with rfl | rfl
    · exact .inl ⟨hx, .inr (.inl ⟨hgroup 0x8 hg, by rw [hn]; decide⟩)⟩
    · exact .inr (.inl ⟨rfl, .inl ⟨hgroup 0x8 hg, by rw [hn]; decide⟩⟩)
  | shiftLeft x =>
    obtain ⟨hg, hn, rfl⟩ := hcode
    replace hn : w.toNat % 0x10 = 0xe := hnibble _ hn
    rcases h with rfl | rfl
    · exact .inl ⟨hx, .inr (.inl ⟨hgroup 0x8 hg, by rw [hn]; decide⟩)⟩
    · exact .inr (.inl ⟨rfl, .inl ⟨hgroup 0x8 hg, by rw [hn]; decide⟩⟩)
  | draw x y n =>
    obtain ⟨hg, -⟩ := hcode
    exact .inr (.inl ⟨h ▸ rfl, .inr (hgroup 0xd hg)⟩)
  | getDelay x =>
    obtain ⟨hg, hn, rfl⟩ := hcode
    replace hn : w.toNat % 0x100 = 0x07 := hlow _ hn
    exact .inl ⟨h ▸ hx, .inr (.inr ⟨hgroup 0xf hg, by rw [hn]; decide⟩)⟩
  | awaitKey x =>
    obtain ⟨hg, hn, rfl⟩ := hcode
    replace hn : w.toNat % 0x100 = 0x0a := hlow _ hn
    exact .inl ⟨h ▸ hx, .inr (.inr ⟨hgroup 0xf hg, by rw [hn]; decide⟩)⟩
  | loadBlock x =>
    obtain ⟨hg, hn, rfl⟩ := hcode
    replace h : r.val ≤ w.toNat / 0x100 % 0x10 := Fields.x_toNat w ▸ h
    exact .inr (.inr ⟨h, hgroup 0xf hg, hlow _ hn⟩)
  | _ => exact absurd h id

namespace Machine

variable {κ ρ : Type}

theorem delayAfter_ne {m : Machine κ ρ} {i : Instruction} (h : m.delayAfter i ≠ m.cpu.delay) :
    ∃ x, i = .setDelay x := by
  cases i with
  | setDelay x => exact ⟨x, rfl⟩
  | _ => exact absurd rfl h

theorem soundAfter_ne {m : Machine κ ρ} {i : Instruction} (h : m.soundAfter i ≠ m.cpu.sound) :
    ∃ x, i = .setSound x := by
  cases i with
  | setSound x => exact ⟨x, rfl⟩
  | _ => exact absurd rfl h

theorem displayAfter_ne {m : Machine κ ρ} {i : Instruction} (h : m.displayAfter i ≠ m.display) :
    i = .clear ∨ ∃ x y n, i = .draw x y n := by
  cases i with
  | clear => exact .inl rfl
  | draw x y n => exact .inr ⟨x, y, n, rfl⟩
  | _ => exact absurd rfl h

/-- The index register after a step. -/
def nextIndex (m : Machine κ ρ) : Nat :=
  let w := m.nextWord.toNat
  let i := m.cpu.index.toNat
  if w / 0x1000 = 0xa then
    w % 0x1000
  else if w / 0x1000 = 0xf ∧ w % 0x100 = 0x1e then
    (i + m.vx.toNat) % 65536
  else if w / 0x1000 = 0xf ∧ w % 0x100 = 0x29 then
    5 * m.vx.toNat
  else if w / 0x1000 = 0xf ∧ w % 0x100 ∈ [0x55, 0x65] then
    (i + w / 0x100 % 0x10 + 1) % 65536
  else
    i

/-- The digits of `VX` times the size of a glyph stay within an address. -/
theorem toNat_glyphAddress (digit : UInt8) :
    (Font.glyphAddress digit).toNat = 5 * digit.toNat := by
  have hdigit := digit.toNat_lt
  rw [Font.glyphAddress, UInt16.toNat_add, UInt16.toNat_mul, UInt8.toNat_toUInt16]
  show (digit.toNat * 5 % 65536 + 0) % 65536 = 5 * digit.toNat
  omega

variable {m : Machine κ ρ}

theorem nextIndex_of_other
    (h : ∀ i, Instruction.ofWord? m.nextWord = some i → ¬ i.Points) :
    m.nextIndex = m.cpu.index.toNat := by
  have hother (i : Instruction) (hi : i.Points) : ¬ (Fields.ofWord m.nextWord).Encodes i :=
    fun hcode => h i ((Instruction.ofWord?_eq_some_iff _ i).mpr hcode) hi
  have hgroup (g : UInt8) := (Fields.group_eq_iff m.nextWord g).mpr
  have hlow (b : UInt8) := (Fields.nn_eq_iff m.nextWord b).mpr
  have hset : m.nextWord.toNat / 0x1000 ≠ 0xa := fun hg =>
    hother (.setIndex _) trivial ⟨hgroup 0xa hg, rfl⟩
  have hadd : ¬ (m.nextWord.toNat / 0x1000 = 0xf ∧ m.nextWord.toNat % 0x100 = 0x1e) := fun hw =>
    hother (.addIndex _) trivial ⟨hgroup 0xf hw.1, hlow 0x1e hw.2, rfl⟩
  have hglyph : ¬ (m.nextWord.toNat / 0x1000 = 0xf ∧ m.nextWord.toNat % 0x100 = 0x29) := fun hw =>
    hother (.glyph _) trivial ⟨hgroup 0xf hw.1, hlow 0x29 hw.2, rfl⟩
  have hblock : ¬ (m.nextWord.toNat / 0x1000 = 0xf ∧
      m.nextWord.toNat % 0x100 ∈ [0x55, 0x65]) := fun ⟨hg, hn⟩ => by
    rcases List.mem_cons.mp hn with hn | hn
    · exact hother (.storeBlock _) trivial ⟨hgroup 0xf hg, hlow 0x55 hn, rfl⟩
    · exact hother (.loadBlock _) trivial ⟨hgroup 0xf hg, hlow 0x65 (List.mem_singleton.mp hn), rfl⟩
  simp only [nextIndex, hset, hadd, hglyph, hblock, ↓reduceIte]

/-- The index register after an instruction, told from the digits of its word. -/
theorem toNat_indexAfter {i : Instruction} (hw : Instruction.ofWord? m.nextWord = some i) :
    (m.fetched.indexAfter i).toNat = m.nextIndex := by
  have hcode := (Instruction.ofWord?_eq_some_iff _ _).mp hw
  have hgroup (g : UInt8) := (Fields.group_eq_iff m.nextWord g).mp
  have hlow (b : UInt8) := (Fields.nn_eq_iff m.nextWord b).mp
  cases i with
  | setIndex addr =>
    obtain ⟨hg, rfl⟩ := hcode
    replace hg : m.nextWord.toNat / 0x1000 = 0xa := hgroup _ hg
    simp [indexAfter, nextIndex, hg, Fields.nnn_toNat]
  | addIndex x =>
    obtain ⟨hg, hn, rfl⟩ := hcode
    replace hg : m.nextWord.toNat / 0x1000 = 0xf := hgroup _ hg
    replace hn : m.nextWord.toNat % 0x100 = 0x1e := hlow _ hn
    have hnext : m.nextIndex = (m.cpu.index.toNat + m.vx.toNat) % 65536 := by
      simp [nextIndex, hg, hn]
    rw [hnext, indexAfter, fetched_get_x, UInt16.toNat_add, UInt8.toNat_toUInt16]
    rfl
  | glyph x =>
    obtain ⟨hg, hn, rfl⟩ := hcode
    replace hg : m.nextWord.toNat / 0x1000 = 0xf := hgroup _ hg
    replace hn : m.nextWord.toNat % 0x100 = 0x29 := hlow _ hn
    simp [indexAfter, nextIndex, hg, hn, fetched_get_x, toNat_glyphAddress]
  | storeBlock x =>
    have hx : x < 16 := Instruction.last_of_ofWord? hw
    obtain ⟨hg, hn, rfl⟩ := hcode
    replace hg : m.nextWord.toNat / 0x1000 = 0xf := hgroup _ hg
    replace hn : m.nextWord.toNat % 0x100 = 0x55 := hlow _ hn
    have hnext : m.nextIndex =
        (m.cpu.index.toNat + m.nextWord.toNat / 0x100 % 0x10 + 1) % 65536 := by
      simp [nextIndex, hg, hn]
    rw [hnext, indexAfter, if_pos hx, toNat_past_block, Fields.x_toNat]
    rfl
  | loadBlock x =>
    obtain ⟨hg, hn, rfl⟩ := hcode
    replace hg : m.nextWord.toNat / 0x1000 = 0xf := hgroup _ hg
    replace hn : m.nextWord.toNat % 0x100 = 0x65 := hlow _ hn
    have hnext : m.nextIndex =
        (m.cpu.index.toNat + m.nextWord.toNat / 0x100 % 0x10 + 1) % 65536 := by
      simp [nextIndex, hg, hn]
    rw [hnext, indexAfter, toNat_past_block, Fields.x_toNat]
    rfl
  | _ =>
    have hkept : m.nextIndex = m.cpu.index.toNat :=
      nextIndex_of_other (Instruction.forall_of_ofWord? hw id)
    exact hkept.symm

variable [Keypad κ] [RandomSource ρ]

/-- A register that an instruction does not touch keeps its value. -/
theorem registersAfter_of_untouched {m : Machine κ ρ} {i : Instruction} {r : Fin 16}
    (h : ¬ i.Touches r) : (m.registersAfter i).cells[r] = m.cpu.v.cells[r] := by
  cases i with
  | load x nn => exact m.cpu.v.cells_set_of_ne h
  | addByte x nn => exact m.cpu.v.cells_set_of_ne h
  | random x nn => exact m.cpu.v.cells_set_of_ne h
  | getDelay x => exact m.cpu.v.cells_set_of_ne h
  | awaitKey x =>
    cases hk : (Keypad.awaitKey m.keys).answer with
    | some key =>
      simp only [registersAfter, hk]
      exact m.cpu.v.cells_set_of_ne h
    | none => simp only [registersAfter, hk]
  | combine how x y =>
    have hx : r ≠ cell x := fun hr => h (.inl hr)
    exact m.cpu.v.cells_combine_of_ne hx fun hhow hr => h (.inr ⟨hr, hhow⟩)
  | shiftRight x =>
    have hx : r ≠ cell x := fun hr => h (.inl hr)
    exact (cells_set_of_ne _ hx).trans (m.cpu.v.cells_set_of_ne fun hr => h (.inr hr))
  | shiftLeft x =>
    have hx : r ≠ cell x := fun hr => h (.inl hr)
    exact (cells_set_of_ne _ hx).trans (m.cpu.v.cells_set_of_ne fun hr => h (.inr hr))
  | draw x y n =>
    simp only [registersAfter]
    split
    · exact m.cpu.v.cells_set_of_ne h
    · rfl
  | loadBlock x =>
    refine m.cpu.v.cells_setBlock_of_le ?_
    rw [Memory.length_readBlock]
    exact Nat.lt_of_not_le h
  | _ => rfl

/-- What a step changes beyond the program counter, the instruction of its word changes. -/
theorem changed_by_instruction {α : Type} {m : Machine κ ρ} (part : Machine κ ρ → α)
    (hfetched : part m.fetched = part m) (h : part m.step.machine ≠ part m) :
    ∃ i, (Fields.ofWord m.nextWord).Encodes i ∧
      part (m.fetched.machineAfter i) ≠ part m.fetched := by
  rw [step_machine] at h
  cases hw : Instruction.ofWord? m.nextWord with
  | none =>
    rw [hw] at h
    exact absurd hfetched h
  | some i =>
    rw [hw, ← hfetched] at h
    exact ⟨i, (Instruction.ofWord?_eq_some_iff _ i).mp hw, h⟩

theorem toNat_step_index (m : Machine κ ρ) : m.step.machine.cpu.index.toNat = m.nextIndex := by
  rw [step_machine]
  cases hw : Instruction.ofWord? m.nextWord with
  | some i => exact toNat_indexAfter hw
  | none =>
    have hkept : m.nextIndex = m.cpu.index.toNat := nextIndex_of_other (by simp [hw])
    exact hkept.symm

/-- **What a step may change.** However a step ends, a register has changed only if the digits of
its word allow it, and the index register is what they say. A timer changes only on the word that
sets it, the call stack only on a call or a return, and the display, picture and request to refresh
alike, only on a clear or a draw. In particular the operations on bits and the sums without a carry
leave the flag alone, if it is not their target. -/
theorem step_changes_only_its_own (m : Machine κ ρ) :
    let w := m.nextWord.toNat
    let after := m.step.machine
    (∀ r : Fin 16, after.cpu.v.cells[r] ≠ m.cpu.v.cells[r] → MayChange w r) ∧
    after.cpu.index.toNat = m.nextIndex ∧
    (after.cpu.delay ≠ m.cpu.delay → w / 0x1000 = 0xf ∧ w % 0x100 = 0x15) ∧
    (after.cpu.sound ≠ m.cpu.sound → w / 0x1000 = 0xf ∧ w % 0x100 = 0x18) ∧
    (after.cpu.stack ≠ m.cpu.stack →
      w / 0x1000 = 0x2 ∨ (w / 0x1000 = 0x0 ∧ w % 0x100 = 0xee)) ∧
    (after.display ≠ m.display →
      (w / 0x1000 = 0x0 ∧ w % 0x100 = 0xe0) ∨ w / 0x1000 = 0xd) ∧
    ((((w / 0x1000 = 0x8 ∧ w % 0x10 ∈ [0x1, 0x2, 0x3]) ∨ w / 0x1000 = 0x7) ∧
        w / 0x100 % 0x10 ≠ 0xf) ∨ (w / 0x1000 = 0xf ∧ w % 0x100 = 0x1e) →
      after.cpu.v.get flag = m.cpu.v.get flag) := by
  intro w after
  have hgroup (g : UInt8) := (Fields.group_eq_iff m.nextWord g).mp
  have hlow (b : UInt8) := (Fields.nn_eq_iff m.nextWord b).mp
  have hregisters (r : Fin 16) (h : after.cpu.v.cells[r] ≠ m.cpu.v.cells[r]) : MayChange w r := by
    obtain ⟨i, hcode, hi⟩ := changed_by_instruction (fun m => m.cpu.v.cells[r]) rfl h
    refine mayChange_of_touches hcode ?_
    by_contra hout
    exact hi (registersAfter_of_untouched hout)
  refine ⟨hregisters, m.toNat_step_index, fun h => ?_, fun h => ?_, fun h => ?_, fun h => ?_,
    fun h => ?_⟩
  · obtain ⟨i, hcode, hi⟩ := changed_by_instruction (fun m => m.cpu.delay) rfl h
    obtain ⟨x, rfl⟩ := delayAfter_ne hi
    exact ⟨hgroup _ hcode.1, hlow _ hcode.2.1⟩
  · obtain ⟨i, hcode, hi⟩ := changed_by_instruction (fun m => m.cpu.sound) rfl h
    obtain ⟨x, rfl⟩ := soundAfter_ne hi
    exact ⟨hgroup _ hcode.1, hlow _ hcode.2.1⟩
  · obtain ⟨i, hcode, hi⟩ := changed_by_instruction (fun m => m.cpu.stack) rfl h
    by_cases hcall : ∃ addr, i = .call addr
    · obtain ⟨addr, rfl⟩ := hcall
      exact .inl (hgroup _ hcode.1)
    by_cases hret : i = .ret
    · subst hret
      exact .inr ⟨hgroup _ hcode.1, hlow _ hcode.2⟩
    · exact absurd (stackAfter_of_other hcall hret) hi
  · obtain ⟨i, hcode, hi⟩ := changed_by_instruction (fun m => m.display) rfl h
    rcases displayAfter_ne hi with rfl | ⟨x, y, n, rfl⟩
    · exact .inl ⟨hgroup _ hcode.1, hlow _ hcode.2⟩
    · exact .inr (hgroup _ hcode.1)
  · by_contra hflag
    exact not_mayChange_flag h (hregisters (cell flag) hflag)

end Machine

end Chip8
