import Chip8.Proofs.Machine.Stepping

/-!
# Where a step goes on

The address after a step is a function of the machine before it. `successor` says which, from the
digits of the word at the program counter, the registers, the keys and the call stack, and knows
nothing of instructions. A word that names no instruction, one that asks for nothing and one whose
step fails are passed over like any other.
-/

namespace Chip8

namespace Instruction

/-- The instructions that may go on at an address of their own. -/
def Jumps : Instruction → Prop
  | .jump _ | .call _ | .jumpOffset _ | .ret => True
  | _ => False

end Instruction

namespace CallStack

variable {s : CallStack}

theorem push_of_room (h : s.size < depth) (addr : UInt16) :
    s.push addr = .ok ⟨s.slots.set s.size addr, s.size + 1⟩ :=
  dif_pos h

theorem push_of_full (h : ¬ s.size < depth) (addr : UInt16) :
    s.push addr = .error (.stackOverflow addr) :=
  dif_neg h

theorem pop_of_pending (h : 0 < s.size ∧ s.size ≤ 16) :
    s.pop = .ok (s.slots[s.size - 1], { s with size := s.size - 1 }) := by
  obtain ⟨slots, size⟩ := s
  cases size with
  | zero => exact absurd h.1 (Nat.lt_irrefl 0)
  | succ top => exact dif_pos h.2

theorem pop_of_none (h : ¬ (0 < s.size ∧ s.size ≤ 16)) : ∃ f, s.pop = .error f := by
  obtain ⟨slots, size⟩ := s
  cases size with
  | zero => exact ⟨.stackUnderflow, rfl⟩
  | succ top =>
    have htop : ¬ top < depth := fun htop => h ⟨Nat.succ_pos top, htop⟩
    exact ⟨.noSuchSlot top, dif_neg htop⟩

end CallStack

namespace Machine

variable {κ ρ : Type}

theorem toNat_fetched_pc (m : Machine κ ρ) :
    m.fetched.cpu.pc.toNat = (m.cpu.pc.toNat + 2) % 65536 :=
  UInt16.toNat_add m.cpu.pc Processor.wordSize

variable [Keypad κ]

/-- The word at the program counter is a skip, and its condition holds. -/
def Skips (m : Machine κ ρ) : Prop :=
  let w := m.nextWord.toNat
  let held := (Keypad.isDown m.keys m.vx).answer
  (w / 0x1000 = 0x3 ∧ m.vx.toNat = w % 0x100) ∨
    (w / 0x1000 = 0x4 ∧ m.vx.toNat ≠ w % 0x100) ∨
    (w / 0x1000 = 0x5 ∧ m.vx = m.vy) ∨
    (w / 0x1000 = 0x9 ∧ w % 0x10 = 0x0 ∧ m.vx ≠ m.vy) ∨
    (w / 0x1000 = 0xe ∧ w % 0x100 = 0x9e ∧ held = true) ∨
    (w / 0x1000 = 0xe ∧ w % 0x100 = 0xa1 ∧ held = false)

instance (m : Machine κ ρ) : Decidable m.Skips :=
  inferInstanceAs (Decidable (_ ∨ _))

/-- The address at which a step goes on. -/
def successor (m : Machine κ ρ) : Nat :=
  let w := m.nextWord.toNat
  let stack := m.cpu.stack
  if m.Skips then
    (m.cpu.pc.toNat + 4) % 65536
  else if w / 0x1000 = 0x1 ∨ (w / 0x1000 = 0x2 ∧ stack.size < 16) then
    w % 0x1000
  else if w / 0x1000 = 0xb then
    (w % 0x1000 + (m.cpu.v.get 0).toNat) % 65536
  else if h : (w / 0x1000 = 0x0 ∧ w % 0x100 = 0xee) ∧ 0 < stack.size ∧ stack.size ≤ 16 then
    stack.slots[stack.size - 1].toNat
  else
    (m.cpu.pc.toNat + 2) % 65536

variable {m : Machine κ ρ}

/-- What the test of a skip answers, told from the digits of its word. -/
theorem answer_iff_skips {condition : Condition}
    (h : (Fields.ofWord m.nextWord).Encodes (.skip condition)) :
    (m.fetched.test condition).answer = true ↔ m.Skips := by
  have hnn := Fields.nn_toNat m.nextWord
  cases condition with
  | equals x nn =>
    obtain ⟨hg, rfl, rfl⟩ := h
    replace hg : m.nextWord.toNat / 0x1000 = 0x3 := (Fields.group_eq_iff _ _).mp hg
    simp [Skips, test, hg, fetched_get_x, ← hnn, UInt8.toNat_inj]
  | differs x nn =>
    obtain ⟨hg, rfl, rfl⟩ := h
    replace hg : m.nextWord.toNat / 0x1000 = 0x4 := (Fields.group_eq_iff _ _).mp hg
    simp [Skips, test, hg, fetched_get_x, ← hnn, UInt8.toNat_inj]
  | same x y =>
    obtain ⟨hg, rfl, rfl⟩ := h
    replace hg : m.nextWord.toNat / 0x1000 = 0x5 := (Fields.group_eq_iff _ _).mp hg
    simp [Skips, test, hg, fetched_get_x, fetched_get_y]
  | distinct x y =>
    obtain ⟨hg, hn, rfl, rfl⟩ := h
    replace hg : m.nextWord.toNat / 0x1000 = 0x9 := (Fields.group_eq_iff _ _).mp hg
    replace hn : m.nextWord.toNat % 0x10 = 0x0 := (Fields.n_eq_iff _ _).mp hn
    simp [Skips, test, hg, hn, fetched_get_x, fetched_get_y]
  | keyDown x =>
    obtain ⟨hg, hn, rfl⟩ := h
    replace hg : m.nextWord.toNat / 0x1000 = 0xe := (Fields.group_eq_iff _ _).mp hg
    replace hn : m.nextWord.toNat % 0x100 = 0x9e := (Fields.nn_eq_iff _ _).mp hn
    simp [Skips, test, hg, hn, fetched_get_x]
  | keyUp x =>
    obtain ⟨hg, hn, rfl⟩ := h
    replace hg : m.nextWord.toNat / 0x1000 = 0xe := (Fields.group_eq_iff _ _).mp hg
    replace hn : m.nextWord.toNat % 0x100 = 0xa1 := (Fields.nn_eq_iff _ _).mp hn
    simp [Skips, test, hg, hn, fetched_get_x]

/-- The words that skip are words of skips. -/
theorem skip_of_skips (h : m.Skips) :
    ∃ condition, Instruction.ofWord? m.nextWord = some (.skip condition) := by
  let f := Fields.ofWord m.nextWord
  have hgroup (g : UInt8) := (Fields.group_eq_iff m.nextWord g).mpr
  have hlow (b : UInt8) := (Fields.nn_eq_iff m.nextWord b).mpr
  simp only [Instruction.ofWord?_eq_some_iff]
  rcases h with ⟨hg, -⟩ | ⟨hg, -⟩ | ⟨hg, -⟩ | ⟨hg, hn, -⟩ | ⟨hg, hn, -⟩ | ⟨hg, hn, -⟩
  · exact ⟨.equals f.x f.nn, hgroup 0x3 hg, rfl, rfl⟩
  · exact ⟨.differs f.x f.nn, hgroup 0x4 hg, rfl, rfl⟩
  · exact ⟨.same f.x f.y, hgroup 0x5 hg, rfl, rfl⟩
  · exact ⟨.distinct f.x f.y, hgroup 0x9 hg, (Fields.n_eq_iff _ 0x0).mpr hn, rfl, rfl⟩
  · exact ⟨.keyDown f.x, hgroup 0xe hg, hlow 0x9e hn, rfl⟩
  · exact ⟨.keyUp f.x, hgroup 0xe hg, hlow 0xa1 hn, rfl⟩

theorem not_skips_of_other
    (h : ∀ condition, Instruction.ofWord? m.nextWord ≠ some (.skip condition)) : ¬ m.Skips :=
  fun hs => by
    obtain ⟨condition, hskip⟩ := skip_of_skips hs
    exact h condition hskip

/-- Behind a word that is no jump a machine that does not skip goes on. -/
theorem successor_of_passed (hs : ¬ m.Skips)
    (hjump : ∀ i, Instruction.ofWord? m.nextWord = some i → ¬ i.Jumps) :
    m.successor = (m.cpu.pc.toNat + 2) % 65536 := by
  have hother (i : Instruction) (hi : i.Jumps) : ¬ (Fields.ofWord m.nextWord).Encodes i :=
    fun hcode => hjump i ((Instruction.ofWord?_eq_some_iff _ i).mpr hcode) hi
  have hgroup (g : UInt8) := Fields.group_eq_iff m.nextWord g
  have h1 : m.nextWord.toNat / 0x1000 ≠ 0x1 := fun hg =>
    hother (.jump _) trivial ⟨(hgroup 0x1).mpr hg, rfl⟩
  have h2 : m.nextWord.toNat / 0x1000 ≠ 0x2 := fun hg =>
    hother (.call _) trivial ⟨(hgroup 0x2).mpr hg, rfl⟩
  have hb : m.nextWord.toNat / 0x1000 ≠ 0xb := fun hg =>
    hother (.jumpOffset _) trivial ⟨(hgroup 0xb).mpr hg, rfl⟩
  have hret : ¬ (m.nextWord.toNat / 0x1000 = 0x0 ∧ m.nextWord.toNat % 0x100 = 0xee) := fun hg =>
    hother .ret trivial ⟨(hgroup 0x0).mpr hg.1, (Fields.nn_eq_iff _ 0xee).mpr hg.2⟩
  simp only [successor, hs, h1, h2, hb, hret, false_and, or_self, ↓reduceIte, ↓reduceDIte]

theorem pcAfter_skip {condition : Condition}
    (hw : Instruction.ofWord? m.nextWord = some (.skip condition)) :
    (m.fetched.pcAfter (.skip condition)).toNat = m.successor := by
  have hanswer := answer_iff_skips ((Instruction.ofWord?_eq_some_iff _ _).mp hw)
  by_cases hs : m.Skips
  · have htwo : (m.fetched.cpu.pc + Processor.wordSize).toNat =
        (m.fetched.cpu.pc.toNat + 2) % 65536 := UInt16.toNat_add _ Processor.wordSize
    rw [pcAfter, if_pos (hanswer.mpr hs), htwo, toNat_fetched_pc, successor, if_pos hs]
    omega
  · have hpassed := successor_of_passed hs (Instruction.forall_of_ofWord? hw id)
    rw [pcAfter, if_neg (mt hanswer.mp hs), toNat_fetched_pc, hpassed]

theorem pcAfter_call {addr : UInt16} (hw : Instruction.ofWord? m.nextWord = some (.call addr)) :
    (m.fetched.pcAfter (.call addr)).toNat = m.successor := by
  have hs : ¬ m.Skips := not_skips_of_other (by simp [hw])
  obtain ⟨hg, rfl⟩ := (Instruction.ofWord?_eq_some_iff _ _).mp hw
  replace hg : m.nextWord.toNat / 0x1000 = 0x2 := (Fields.group_eq_iff _ _).mp hg
  by_cases hroom : m.cpu.stack.size < 16
  · have hpush := CallStack.push_of_room hroom m.fetched.cpu.pc
    simp [pcAfter, hpush, successor, hs, hg, hroom, Fields.nnn_toNat]
  · have hpush := CallStack.push_of_full hroom m.fetched.cpu.pc
    simp [pcAfter, hpush, successor, hs, hg, hroom, toNat_fetched_pc]

theorem pcAfter_ret (hw : Instruction.ofWord? m.nextWord = some .ret) :
    (m.fetched.pcAfter .ret).toNat = m.successor := by
  have hs : ¬ m.Skips := not_skips_of_other (by simp [hw])
  obtain ⟨hg, hn⟩ := (Instruction.ofWord?_eq_some_iff _ _).mp hw
  replace hg : m.nextWord.toNat / 0x1000 = 0x0 := (Fields.group_eq_iff _ _).mp hg
  replace hn : m.nextWord.toNat % 0x100 = 0xee := (Fields.nn_eq_iff _ _).mp hn
  by_cases hpending : 0 < m.cpu.stack.size ∧ m.cpu.stack.size ≤ 16
  · have hpop := CallStack.pop_of_pending hpending
    simp [pcAfter, hpop, successor, hs, hg, hn, hpending]
  · obtain ⟨f, hpop⟩ := CallStack.pop_of_none hpending
    simp [pcAfter, hpop, successor, hs, hg, hn, hpending, toNat_fetched_pc]

/-- Where an instruction goes on, told from the digits of its word. -/
theorem toNat_pcAfter {i : Instruction} (hw : Instruction.ofWord? m.nextWord = some i) :
    (m.fetched.pcAfter i).toNat = m.successor := by
  cases i with
  | skip condition => exact pcAfter_skip hw
  | call addr => exact pcAfter_call hw
  | ret => exact pcAfter_ret hw
  | jump addr =>
    have hs : ¬ m.Skips := not_skips_of_other (by simp [hw])
    obtain ⟨hg, rfl⟩ := (Instruction.ofWord?_eq_some_iff _ _).mp hw
    replace hg : m.nextWord.toNat / 0x1000 = 0x1 := (Fields.group_eq_iff _ _).mp hg
    simp [pcAfter, successor, hs, hg, Fields.nnn_toNat]
  | jumpOffset addr =>
    have hs : ¬ m.Skips := not_skips_of_other (by simp [hw])
    obtain ⟨hg, rfl⟩ := (Instruction.ofWord?_eq_some_iff _ _).mp hw
    replace hg : m.nextWord.toNat / 0x1000 = 0xb := (Fields.group_eq_iff _ _).mp hg
    have hsum : ((Fields.ofWord m.nextWord).nnn + (m.cpu.v.get 0).toUInt16).toNat =
        ((Fields.ofWord m.nextWord).nnn.toNat + (m.cpu.v.get 0).toUInt16.toNat) % 65536 :=
      UInt16.toNat_add _ _
    rw [Fields.nnn_toNat, UInt8.toNat_toUInt16] at hsum
    simp only [pcAfter, successor, hs, hg]
    exact hsum
  | _ =>
    -- none of the others jumps, and the word behind theirs is next
    have hs : ¬ m.Skips := not_skips_of_other (by simp [hw])
    have hpassed := successor_of_passed hs (Instruction.forall_of_ofWord? hw id)
    exact (toNat_fetched_pc m).trans hpassed.symm

variable [RandomSource ρ]

/-- A call goes on unless every return slot is in use. -/
theorem call_proceeds_iff (hg : m.nextWord.toNat / 0x1000 = 0x2) :
    m.step.outcome = .proceeds ↔ m.cpu.stack.size < 16 := by
  rw [step_of_known (Instruction.ofWord?_of_call hg)]
  by_cases hroom : m.cpu.stack.size < 16
  · have hpush := CallStack.push_of_room hroom m.fetched.cpu.pc
    simp [ending, hpush, hroom]
  · have hpush := CallStack.push_of_full hroom m.fetched.cpu.pc
    simp [ending, hpush, hroom]

/-- A return goes on if an address is pending. -/
theorem ret_proceeds_iff (hg : m.nextWord.toNat / 0x1000 = 0x0)
    (hn : m.nextWord.toNat % 0x100 = 0xee) :
    m.step.outcome = .proceeds ↔ 0 < m.cpu.stack.size ∧ m.cpu.stack.size ≤ 16 := by
  rw [step_of_known (Instruction.ofWord?_of_ret hg hn)]
  by_cases hpending : 0 < m.cpu.stack.size ∧ m.cpu.stack.size ≤ 16
  · have hpop := CallStack.pop_of_pending hpending
    simp [ending, hpop, hpending]
  · obtain ⟨f, hpop⟩ := CallStack.pop_of_none hpending
    simp [ending, hpop, hpending]

/-- **Where a step goes on.** However it ends, a step leaves the address that `successor` gives for
the machine before it. Of the conditions there, the ones on the call stack are those on which a call
and a return go on. -/
theorem step_goes_on_at_successor (m : Machine κ ρ) :
    m.step.machine.cpu.pc.toNat = m.successor ∧
      (m.nextWord.toNat / 0x1000 = 0x2 →
        (m.step.outcome = .proceeds ↔ m.cpu.stack.size < 16)) ∧
      (m.nextWord.toNat / 0x1000 = 0x0 → m.nextWord.toNat % 0x100 = 0xee →
        (m.step.outcome = .proceeds ↔ 0 < m.cpu.stack.size ∧ m.cpu.stack.size ≤ 16)) := by
  refine ⟨?_, call_proceeds_iff, ret_proceeds_iff⟩
  rw [step_machine]
  cases hw : Instruction.ofWord? m.nextWord with
  | some i => exact toNat_pcAfter hw
  | none =>
    have hs : ¬ m.Skips := not_skips_of_other (by simp [hw])
    have hpassed := successor_of_passed hs (by simp [hw])
    exact (toNat_fetched_pc m).trans hpassed.symm

end Machine

end Chip8
