import Chip8.Keypad.Scripted
import Chip8.Proofs.Checked.Access
import Chip8.Proofs.Instruction.Encoding
import Chip8.Proofs.Machine.Stepping
import Chip8.Proofs.Memory.Writes

/-!
# What a session leaves in memory

Of all that can happen to a machine three things write to memory: a program that is loaded, the
digits of a byte, and a block of registers. `bytesWritten` lists what each action puts where, and
memory is what these bytes make of the font and zeros. So every byte has been put there by the latest
write to its address, however the program has changed itself and whatever has been loaded over it.
-/

namespace Chip8

open ByteWrite

/-- The hundreds, tens and units of a byte. -/
theorem Machine.decimalDigits_eq (b : UInt8) :
    decimalDigits b = [b.toNat / 100, b.toNat / 10 % 10, b.toNat % 10].map UInt8.ofNat := by
  have hb := b.toNat_lt
  have hhundreds : b / 100 = UInt8.ofNat (b.toNat / 100) := by
    rw [← UInt8.toNat_inj, UInt8.toNat_div, UInt8.toNat_ofNat']
    have hlt : b.toNat / 100 < 2 ^ 8 := by omega
    exact (Nat.mod_eq_of_lt hlt).symm
  have htens : b / 10 % 10 = UInt8.ofNat (b.toNat / 10 % 10) := by
    rw [← UInt8.toNat_inj, UInt8.toNat_mod, UInt8.toNat_div, UInt8.toNat_ofNat']
    have hlt : b.toNat / 10 % 10 < 2 ^ 8 := by omega
    exact (Nat.mod_eq_of_lt hlt).symm
  have hunits : b % 10 = UInt8.ofNat (b.toNat % 10) := by
    rw [← UInt8.toNat_inj, UInt8.toNat_mod, UInt8.toNat_ofNat']
    have hlt : b.toNat % 10 < 2 ^ 8 := by omega
    exact (Nat.mod_eq_of_lt hlt).symm
  rw [decimalDigits, hhundreds, htens, hunits]
  rfl

namespace Machine

variable {κ ρ : Type}

/-- Only a program that is loaded gets to memory. -/
theorem loadFrom_memory (m : Machine κ ρ) (source : ByteSource) :
    (m.loadFrom source).machine.memory =
      if (m.loadFrom source).outcome = .proceeds then
        m.memory.writeBlock programStart source.chunks.flatten
      else m.memory := by
  unfold loadFrom Memory.loadFrom ByteSource.contents Memory.loadProgram
  cases source.failure with
  | some reason => rfl
  | none =>
    by_cases hfits : source.chunks.flatten.length ≤ programCapacity
    · simp only [hfits, ↓reduceIte]
    · simp only [hfits, ↓reduceIte]
      rfl

/-- What an instruction puts where: three digits or some registers, from the index register on. -/
def bytesPut (m : Machine κ ρ) : Instruction → List ByteWrite
  | .decimal x =>
    let v := (m.cpu.v.get x).toNat
    placed m.cpu.index.toNat ([v / 100, v / 10 % 10, v % 10].map UInt8.ofNat)
  | .storeBlock x => placed m.cpu.index.toNat (m.cpu.v.cells.toList.take (x.toNat + 1))
  | _ => []

/-- What an action puts where, on the machine it finds. -/
def bytesWritten (m : Machine κ ρ) : Action → List ByteWrite
  | .load source =>
    if (m.loadFrom source).outcome = .proceeds then placed 0x200 source.chunks.flatten else []
  | .step =>
    match Instruction.ofWord? m.nextWord with
    | some i => m.bytesPut i
    | none => []
  | .tick => []

/-- The instruction of a word puts its bytes, and leaves all others. -/
theorem memoryAfter_eq_putAll (m : Machine κ ρ) {w : UInt16} {i : Instruction}
    (hw : Instruction.ofWord? w = some i) : m.memoryAfter i = m.memory.putAll (m.bytesPut i) := by
  cases i with
  | decimal x =>
    rw [memoryAfter, Memory.writeBlock_eq_putAll, decimalDigits_eq]
    rfl
  | storeBlock x =>
    have hx : x.toNat < 16 := Instruction.last_of_ofWord? hw
    have hlast : x < 16 := hx
    have hblock : m.cpu.v.block 0 (x.toNat + 1) = m.cpu.v.cells.toList.take (x.toNat + 1) :=
      Registers.block_eq_take m.cpu.v 0 (x.toNat + 1) (by rw [UInt8.toNat_zero]; omega)
    simp only [memoryAfter, hlast, ↓reduceIte]
    rw [Memory.writeBlock_eq_putAll, hblock]
    rfl
  | _ => rfl

variable [Keypad κ] [RandomSource ρ]

/-- What an action does to memory: it puts its bytes, and leaves all others. -/
theorem act_memory (m : Machine κ ρ) (a : Action) :
    (m.act a).machine.memory = m.memory.putAll (m.bytesWritten a) := by
  cases a with
  | load source =>
    show (m.loadFrom source).machine.memory = _
    rw [loadFrom_memory, bytesWritten]
    by_cases ho : (m.loadFrom source).outcome = .proceeds
    · rw [if_pos ho, if_pos ho, Memory.writeBlock_eq_putAll]
      rfl
    · rw [if_neg ho, if_neg ho]
      rfl
  | tick =>
    show m.tick.machine.memory = m.memory
    rw [tick_machine]
  | step =>
    show m.step.machine.memory = _
    cases hw : Instruction.ofWord? m.nextWord with
    | none =>
      rw [step_of_unknown hw, bytesWritten, hw]
      rfl
    | some i =>
      rw [step_of_known hw, bytesWritten, hw]
      exact m.fetched.memoryAfter_eq_putAll hw

/-- The run lemma: a session leaves what its writes make of the memory it began with. -/
theorem after_memory (m : Machine κ ρ) (session : List Action) :
    (m.after session).memory = m.memory.putAll (history bytesWritten m session) := by
  induction session generalizing m with
  | nil => rfl
  | cons a rest ih =>
    rw [history, Memory.putAll_append, ← act_memory]
    exact ih (m.act a).machine

/-- **Every byte of memory is that of the latest write to its address.** The writes of a session are
the font, at the bottom; the programs that were loaded, at 0x200; and for the words that ask for it
the digits of a register or a block of registers, at the index register and around the top of
memory. An address without a write reads zero, and an action that is none of these leaves memory as
it was. -/
theorem memory_is_last_written (keys : κ) (random : ρ) (session : List Action) :
    let m := (fresh keys random).after session
    let writes := placed 0 Font.glyphs ++ history bytesWritten (fresh keys random) session
    (∀ a : Fin 4096, m.memory.bytes[a] = (latest? writes a).getD 0) ∧
      (∀ action, m.bytesWritten action = [] → (m.act action).machine.memory = m.memory) := by
  intro m writes
  refine ⟨fun a => ?_, fun action hnone => ?_⟩
  · have hfont : (fresh keys random).memory = Memory.zeroed.putAll (placed 0 Font.glyphs) :=
      Memory.writeBlock_eq_putAll Memory.zeroed Font.start Font.glyphs
    have hmemory : m.memory = Memory.zeroed.putAll writes := by
      rw [after_memory, hfont, Memory.putAll_append]
    have hzero : Memory.zeroed.bytes[a] = 0 := by simp [Memory.zeroed]
    rw [hmemory, Memory.bytes_putAll, hzero]
  · rw [act_memory, hnone]
    rfl

/-- Two registers stored at the top of memory: the second goes to the bottom, over the font. -/
example :
    let keys : ScriptedKeys := ⟨[], [], 0, none⟩
    let random : ScriptedRandom := ⟨[], 0⟩
    let program : ByteSource := .ofBytes [0xaf, 0xff, 0x60, 0xab, 0x61, 0xcd, 0xf1, 0x55]
    let m := (fresh keys random).after (.load program :: List.replicate 4 .step)
    (m.memory.bytes[4095], m.memory.bytes[0]) = (0xab, 0xcd) := by
  decide +kernel

end Machine

end Chip8
