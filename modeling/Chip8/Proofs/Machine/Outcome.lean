import Chip8.Keypad.Scripted
import Chip8.Proofs.Instruction.Encoding
import Chip8.Proofs.Machine.Stepping

/-!
# How a step ends, and what an ending leaves behind

A step proceeds unless one of four things is the case, each told from the fetched word and one
part of the machine. The four exclude each other, so `step_ends_exactly` is an equivalence for every
ending. Whatever keeps a step from proceeding is found before anything is changed: the machine it
leaves differs in the program counter alone, and in the keys that a wait has asked.
-/

namespace Chip8

namespace Processor

/-- A failed push leaves the whole processor as it was. -/
theorem push_unchanged {p : Processor} {addr : UInt16} {f : Fault}
    (h : (p.push addr).1 = .error f) : (p.push addr).2 = p := by
  unfold push at h ⊢
  split
  · rename_i hs
    simp [hs] at h
  · rfl

theorem pop_unchanged {p : Processor} {f : Fault} (h : p.pop.1 = .error f) : p.pop.2 = p := by
  unfold pop at h ⊢
  split
  · rename_i hs
    simp [hs] at h
  · rfl

/-- A failed call has neither pushed nor jumped. -/
theorem call_unchanged {p : Processor} {addr : UInt16} {f : Fault}
    (h : (p.call addr).1 = .error f) : (p.call addr).2 = p := by
  unfold call at h ⊢
  split
  · rename_i hp
    simp [hp] at h
  · rename_i g q hp
    have hq : (p.push p.pc).2 = p := push_unchanged (f := g) (by rw [hp])
    rwa [hp] at hq

/-- A failed return has neither popped nor jumped. -/
theorem ret_unchanged {p : Processor} {f : Fault} (h : p.ret.1 = .error f) : p.ret.2 = p := by
  unfold ret at h ⊢
  split
  · rename_i hp
    simp [hp] at h
  · rename_i g q hp
    have hq : p.pop.2 = p := pop_unchanged (f := g) (by rw [hp])
    rwa [hp] at hq

end Processor

namespace Machine

variable {κ ρ : Type}

/-- The next word is one that groups E and F do not know. -/
def Unsupported (m : Machine κ ρ) : Prop :=
  (m.nextWord.toNat / 0x1000 = 0xe ∧ m.nextWord.toNat % 0x100 ∉ [0x9e, 0xa1]) ∨
    (m.nextWord.toNat / 0x1000 = 0xf ∧
      m.nextWord.toNat % 0x100 ∉ [0x07, 0x0a, 0x15, 0x18, 0x1e, 0x29, 0x33, 0x55, 0x65])

/-- The next word is a call, and every return slot is in use. -/
def CallsWhenFull (m : Machine κ ρ) : Prop :=
  m.nextWord.toNat / 0x1000 = 0x2 ∧ m.cpu.stack.size = 16

/-- The next word is a return, and no call is pending. -/
def ReturnsWhenEmpty (m : Machine κ ρ) : Prop :=
  m.nextWord.toNat / 0x1000 = 0x0 ∧ m.nextWord.toNat % 0x100 = 0xee ∧ m.cpu.stack.size = 0

/-- The next word waits for a key, and the wait ends without one. -/
def QuitsAtKey [Keypad κ] (m : Machine κ ρ) : Prop :=
  m.nextWord.toNat / 0x1000 = 0xf ∧ m.nextWord.toNat % 0x100 = 0x0a ∧
    (Keypad.awaitKey m.keys).answer = none

variable [Keypad κ]

/-- An instruction that fails has asked no key. -/
theorem keysAfter_of_faults {m : Machine κ ρ} {i : Instruction} {f : Fault}
    (h : m.ending i = .faults f) : m.keysAfter i = m.keys := by
  cases i with
  | skip condition => cases h
  | awaitKey x =>
    simp only [ending] at h
    split at h <;> cases h
  | _ => rfl

/-- An instruction that quits has asked for a key and got none. -/
theorem quits_iff {m : Machine κ ρ} {i : Instruction} :
    m.ending i = .quits ↔ (∃ x, i = .awaitKey x) ∧ (Keypad.awaitKey m.keys).answer = none := by
  constructor
  · intro h
    cases i with
    | awaitKey x =>
      cases hk : (Keypad.awaitKey m.keys).answer with
      | some key => simp [ending, hk] at h
      | none => exact ⟨⟨x, rfl⟩, rfl⟩
    | ret =>
      simp only [ending] at h
      split at h <;> cases h
    | call addr =>
      simp only [ending] at h
      split at h <;> cases h
    | draw x y n =>
      simp only [ending] at h
      split at h <;> cases h
    | storeBlock x =>
      simp only [ending] at h
      split at h <;> cases h
    | _ => cases h
  · rintro ⟨⟨x, rfl⟩, hk⟩
    simp [ending, hk]

variable [RandomSource ρ]

/-- What an instruction that does not proceed leaves of the machine: all of it but the keys. -/
theorem machineAfter_of_refused {m : Machine κ ρ} {i : Instruction} (h : m.ending i ≠ .proceeds) :
    m.machineAfter i = { m with keys := m.keysAfter i } := by
  cases i with
  | ret =>
    cases hp : m.cpu.stack.pop with
    | ok popped => simp [ending, hp] at h
    | error f =>
      simp only [machineAfter, cpuAfter, stackAfter, pcAfter, hp]
      rfl
  | call addr =>
    cases hp : m.cpu.stack.push m.cpu.pc with
    | ok stack => simp [ending, hp] at h
    | error f =>
      simp only [machineAfter, cpuAfter, stackAfter, pcAfter, hp]
      rfl
  | awaitKey x =>
    cases hk : (Keypad.awaitKey m.keys).answer with
    | some key => simp [ending, hk] at h
    | none =>
      simp only [machineAfter, cpuAfter, registersAfter, hk]
      rfl
  | draw x y n =>
    by_cases hn : n ≤ spriteCapacity
    · simp [ending, hn] at h
    · simp only [machineAfter, cpuAfter, registersAfter, displayAfter, hn, ↓reduceIte]
      rfl
  | storeBlock x =>
    by_cases hx : x < 16
    · simp [ending, hx] at h
    · simp only [machineAfter, cpuAfter, indexAfter, memoryAfter, hx, ↓reduceIte]
      rfl
  | _ => exact absurd rfl h

/-- A step ends as its instruction does; a word without one ends it at once. -/
theorem step_outcome (m : Machine κ ρ) :
    m.step.outcome =
      match Instruction.ofWord? m.nextWord with
      | some i => m.fetched.ending i
      | none => .faults (.unsupportedWord m.nextWord) := by
  cases h : Instruction.ofWord? m.nextWord with
  | some i => rw [step_of_known h]
  | none => rw [step_of_unknown h]; rfl

theorem outcome_of_unsupported {m : Machine κ ρ} (hu : m.Unsupported) :
    m.step.outcome = .faults (.unsupportedWord m.nextWord) := by
  rw [step_outcome, (Instruction.ofWord?_eq_none_iff m.nextWord).mpr hu]

theorem outcome_of_callsWhenFull {m : Machine κ ρ} (hc : m.CallsWhenFull) :
    m.step.outcome = .faults (.stackOverflow (m.nextWord &&& 0x0fff)) := by
  rw [step_outcome, Instruction.ofWord?_of_call hc.1]
  have hpush := (CallStack.push_eq_error_iff m.cpu.stack m.fetched.cpu.pc _).mpr
    ⟨Nat.le_of_eq hc.2.symm, rfl⟩
  simp only [ending, fetched_stack, hpush]

theorem outcome_of_returnsWhenEmpty {m : Machine κ ρ} (hr : m.ReturnsWhenEmpty) :
    m.step.outcome = .faults .stackUnderflow := by
  rw [step_outcome, Instruction.ofWord?_of_ret hr.1 hr.2.1]
  have hpop := (CallStack.pop_eq_error_iff (s := m.cpu.stack) (by rw [hr.2.2]; decide) _).mpr
    ⟨hr.2.2, rfl⟩
  simp only [ending, fetched_stack, hpop]

theorem outcome_of_quitsAtKey {m : Machine κ ρ} (hq : m.QuitsAtKey) : m.step.outcome = .quits := by
  rw [step_outcome, Instruction.ofWord?_of_awaitKey hq.1 hq.2.1]
  exact quits_iff.mpr ⟨⟨_, rfl⟩, hq.2.2⟩

/-- A step that nothing stands in the way of proceeds. -/
theorem outcome_of_clear {m : Machine κ ρ} (h : m.cpu.stack.size ≤ 16) (hu : ¬ m.Unsupported)
    (hc : ¬ m.CallsWhenFull) (hr : ¬ m.ReturnsWhenEmpty) (hq : ¬ m.QuitsAtKey) :
    m.step.outcome = .proceeds := by
  rw [step_outcome]
  cases hw : Instruction.ofWord? m.nextWord with
  | none => exact absurd ((Instruction.ofWord?_eq_none_iff m.nextWord).mp hw) hu
  | some i =>
    have hcode := (Instruction.ofWord?_eq_some_iff m.nextWord i).mp hw
    cases i with
    | ret =>
      rw [Fields.Encodes, Fields.group_eq_iff, Fields.nn_eq_iff] at hcode
      cases hp : m.cpu.stack.pop with
      | ok popped => simp only [ending, fetched_stack, hp]
      | error f =>
        have hempty := ((CallStack.pop_eq_error_iff h f).mp hp).1
        exact absurd ⟨hcode.1, hcode.2, hempty⟩ hr
    | call addr =>
      rw [Fields.Encodes, Fields.group_eq_iff] at hcode
      cases hp : m.cpu.stack.push m.fetched.cpu.pc with
      | ok stack => simp only [ending, fetched_stack, hp]
      | error f =>
        have hfull := ((CallStack.push_eq_error_iff _ _ f).mp hp).1
        exact absurd ⟨hcode.1, Nat.le_antisymm h hfull⟩ hc
    | awaitKey x =>
      rw [Fields.Encodes, Fields.group_eq_iff, Fields.nn_eq_iff] at hcode
      cases hk : (Keypad.awaitKey m.keys).answer with
      | some key => simp [ending, hk]
      | none => exact absurd ⟨hcode.1, hcode.2.1, hk⟩ hq
    | draw x y n =>
      have hn : n ≤ spriteCapacity := Nat.le_of_lt_succ (Instruction.rows_of_ofWord? hw)
      simp only [ending, hn, ↓reduceIte]
    | storeBlock x =>
      have hx : x < 16 := Instruction.last_of_ofWord? hw
      simp only [ending, hx, ↓reduceIte]
    | _ => rfl

/-- A step meets one of the four obstacles and ends accordingly, or none and proceeds. -/
theorem step_verdict {m : Machine κ ρ} (h : m.cpu.stack.size ≤ 16) :
    (m.Unsupported ∧ m.step.outcome = .faults (.unsupportedWord m.nextWord)) ∨
      (m.CallsWhenFull ∧ m.step.outcome = .faults (.stackOverflow (m.nextWord &&& 0x0fff))) ∨
      (m.ReturnsWhenEmpty ∧ m.step.outcome = .faults .stackUnderflow) ∨
      (m.QuitsAtKey ∧ m.step.outcome = .quits) ∨ m.step.outcome = .proceeds := by
  by_cases hu : m.Unsupported
  · exact .inl ⟨hu, outcome_of_unsupported hu⟩
  by_cases hc : m.CallsWhenFull
  · exact .inr (.inl ⟨hc, outcome_of_callsWhenFull hc⟩)
  by_cases hr : m.ReturnsWhenEmpty
  · exact .inr (.inr (.inl ⟨hr, outcome_of_returnsWhenEmpty hr⟩))
  by_cases hq : m.QuitsAtKey
  · exact .inr (.inr (.inr (.inl ⟨hq, outcome_of_quitsAtKey hq⟩)))
  · exact .inr (.inr (.inr (.inr (outcome_of_clear h hu hc hr hq))))

/-- What a step that does not proceed leaves of the machine: all of it, moved past the word, but
the keys. -/
theorem step_machine_of_refused {m : Machine κ ρ} (h : m.step.outcome ≠ .proceeds) :
    m.step.machine = { m.fetched with keys := m.step.machine.keys } := by
  cases hw : Instruction.ofWord? m.nextWord with
  | none =>
    rw [step_of_unknown hw]
    rfl
  | some i =>
    rw [step_of_known hw] at h ⊢
    exact machineAfter_of_refused h

theorem step_keys_of_faults {m : Machine κ ρ} {f : Fault} (h : m.step.outcome = .faults f) :
    m.step.machine.keys = m.keys := by
  cases hw : Instruction.ofWord? m.nextWord with
  | none =>
    rw [step_of_unknown hw]
    rfl
  | some i =>
    rw [step_of_known hw] at h ⊢
    exact keysAfter_of_faults h

theorem step_keys_of_quits {m : Machine κ ρ} (h : m.step.outcome = .quits) :
    m.step.machine.keys = (Keypad.awaitKey m.keys).keys := by
  cases hw : Instruction.ofWord? m.nextWord with
  | none =>
    rw [step_of_unknown hw] at h
    cases h
  | some i =>
    rw [step_of_known hw] at h ⊢
    obtain ⟨⟨x, rfl⟩, -⟩ := quits_iff.mp h
    rfl

/-- **How a step ends, and what it leaves if it does not proceed.** The word is the pair of bytes at
the program counter. Each ending has its condition, and without any of the four a step proceeds. A
fault leaves the machine moved past its word and otherwise as it was; a quit has asked the keys
besides. The stack operations of the processor, when they fail, leave it unchanged as a whole. -/
theorem step_ends_exactly (m : Machine κ ρ) (h : m.cpu.stack.size ≤ 16) :
    m.nextWord.toNat = 0x100 * (m.memory.bytes[Fin.ofNat 4096 m.cpu.pc.toNat]).toNat +
        (m.memory.bytes[Fin.ofNat 4096 (m.cpu.pc.toNat + 1)]).toNat ∧
      (∀ w, m.step.outcome = .faults (.unsupportedWord w) ↔ m.Unsupported ∧ w = m.nextWord) ∧
      (∀ addr, m.step.outcome = .faults (.stackOverflow addr) ↔
        m.CallsWhenFull ∧ addr = m.nextWord &&& 0x0fff) ∧
      (m.step.outcome = .faults .stackUnderflow ↔ m.ReturnsWhenEmpty) ∧
      (m.step.outcome = .quits ↔ m.QuitsAtKey) ∧
      (m.step.outcome = .proceeds ↔
        ¬ m.Unsupported ∧ ¬ m.CallsWhenFull ∧ ¬ m.ReturnsWhenEmpty ∧ ¬ m.QuitsAtKey) ∧
      (∀ f, m.step.outcome = .faults f →
        m.step.machine = { m with cpu := { m.cpu with pc := m.cpu.pc + 2 } }) ∧
      (m.step.outcome = .quits →
        m.step.machine = { m with
          cpu := { m.cpu with pc := m.cpu.pc + 2 }
          keys := (Keypad.awaitKey m.keys).keys }) ∧
      (∀ (p : Processor) (f : Fault),
        (∀ addr, (p.push addr).1 = .error f → (p.push addr).2 = p) ∧
        (p.pop.1 = .error f → p.pop.2 = p) ∧
        (∀ addr, (p.call addr).1 = .error f → (p.call addr).2 = p) ∧
        (p.ret.1 = .error f → p.ret.2 = p)) := by
  -- from an ending to its condition: the verdict lists every ending with its own
  have hverdict := step_verdict h
  refine ⟨m.memory.toNat_readWord m.cpu.pc, fun w => ⟨fun ho => ?_, ?_⟩,
    fun addr => ⟨fun ho => ?_, ?_⟩, ⟨fun ho => ?_, outcome_of_returnsWhenEmpty⟩,
    ⟨fun ho => ?_, outcome_of_quitsAtKey⟩, ⟨fun ho => ⟨?_, ?_, ?_, ?_⟩, ?_⟩, fun f ho => ?_,
    fun ho => ?_, fun p f => ⟨fun _ => Processor.push_unchanged, Processor.pop_unchanged,
      fun _ => Processor.call_unchanged, Processor.ret_unchanged⟩⟩
  · rw [ho] at hverdict
    simpa using hverdict
  · rintro ⟨hu, rfl⟩
    exact outcome_of_unsupported hu
  · rw [ho] at hverdict
    simpa using hverdict
  · rintro ⟨hc, rfl⟩
    exact outcome_of_callsWhenFull hc
  · rw [ho] at hverdict
    simpa using hverdict
  · rw [ho] at hverdict
    simpa using hverdict
  · intro hu
    rw [outcome_of_unsupported hu] at ho
    cases ho
  · intro hc
    rw [outcome_of_callsWhenFull hc] at ho
    cases ho
  · intro hr
    rw [outcome_of_returnsWhenEmpty hr] at ho
    cases ho
  · intro hq
    rw [outcome_of_quitsAtKey hq] at ho
    cases ho
  · rintro ⟨hu, hc, hr, hq⟩
    exact outcome_of_clear h hu hc hr hq
  · rw [step_machine_of_refused (by rw [ho]; nofun), step_keys_of_faults ho]
    rfl
  · rw [step_machine_of_refused (by rw [ho]; nofun), step_keys_of_quits ho]
    rfl

/-- A program that calls itself runs out of return slots at the seventeenth call. -/
theorem step_ends_exactly_at_seventeenth_call :
    let m := (fresh (⟨[], [], 0, none⟩ : ScriptedKeys) (⟨[], 0⟩ : ScriptedRandom)).after
      (.load (.ofBytes [0x22, 0x00]) :: List.replicate 16 .step)
    m.cpu.stack.size ≤ 16 ∧ m.step.outcome = .faults (.stackOverflow 0x200) ∧
      m.step.machine = { m with cpu := { m.cpu with pc := 0x202 } } := by
  intro m
  have hrun : m.cpu.stack.size = 16 ∧ m.nextWord = 0x2200 ∧ m.cpu.pc = 0x200 := by
    decide +kernel
  obtain ⟨hsize, hcall, hpc⟩ := hrun
  have hfull : m.CallsWhenFull := ⟨by rw [hcall]; decide, hsize⟩
  obtain ⟨-, -, hover, -, -, -, hframe, -⟩ := step_ends_exactly m (Nat.le_of_eq hsize)
  have ho := (hover 0x200).mpr ⟨hfull, by rw [hcall]; decide⟩
  refine ⟨Nat.le_of_eq hsize, ho, ?_⟩
  rw [hframe _ ho, hpc]
  rfl

end Machine

end Chip8
