import Mathlib.Data.List.Forall2
import Chip8.Keypad.Scripted
import Chip8.Proofs.Machine.Stepping
import Chip8.Proofs.Memory.Aliases

/-!
# The high bits of addresses do not matter

The index register, the program counter and the return addresses are sixteen bits wide, and programs
can bring anything into their high four bits. Two machines that differ in these bits alone
(`Aliased`) cannot be told apart: an action ends alike on both, plays the sound alike, logs alike but
for the address of a step, and leaves machines that again differ in these bits alone.
-/

namespace Chip8

open Memory (Alias)

namespace CallStack

/-- Two stacks with aliases in the slots in use. What the other slots hold does not matter. -/
structure Aliased (s t : CallStack) : Prop where
  size_eq : s.size = t.size
  slots : ∀ i, (h : i < 16) → i < s.size → Alias s.slots[i] t.slots[i]

variable {s t : CallStack}

/-- A push succeeds on both stacks or is refused by both. -/
theorem Aliased.push (h : s.Aliased t) {a b : UInt16} (hab : Alias a b) :
    (∃ s' t', s.push a = .ok s' ∧ t.push b = .ok t' ∧ s'.Aliased t') ∨
      (∃ f g, s.push a = .error f ∧ t.push b = .error g) := by
  unfold CallStack.push
  by_cases hfree : t.size < depth
  · left
    simp only [h.size_eq, hfree, ↓reduceDIte]
    refine ⟨_, _, rfl, rfl, rfl, fun i hi hin => ?_⟩
    have hin' : i < t.size + 1 := hin
    simp only [Vector.getElem_set]
    by_cases hat : t.size = i
    · rw [if_pos hat, if_pos hat]
      exact hab
    · rw [if_neg hat, if_neg hat]
      exact h.slots i hi (by rw [h.size_eq]; omega)
  · right
    simp only [h.size_eq, hfree, ↓reduceDIte]
    exact ⟨_, _, rfl, rfl⟩

/-- A pop takes aliases off both stacks, or fails on both for the same reason. -/
theorem Aliased.pop (h : s.Aliased t) :
    (∃ a b s' t', s.pop = .ok (a, s') ∧ t.pop = .ok (b, t') ∧ Alias a b ∧ s'.Aliased t') ∨
      (∃ f, s.pop = .error f ∧ t.pop = .error f) := by
  have hsize := h.size_eq
  unfold CallStack.pop
  rcases ht : t.size with _ | top
  · right
    rw [ht] at hsize
    simp only [hsize]
    exact ⟨_, rfl, rfl⟩
  · rw [ht] at hsize
    simp only [hsize]
    by_cases htop : top < depth
    · left
      simp only [htop, ↓reduceDIte]
      refine ⟨_, _, _, _, rfl, rfl, h.slots top htop (by omega), rfl, fun i hi hin => ?_⟩
      have hin' : i < top := hin
      exact h.slots i hi (by omega)
    · right
      simp only [htop, ↓reduceDIte]
      exact ⟨_, rfl, rfl⟩

end CallStack

/-- Two log records that are the same, the address of a step apart. -/
inductive LogRecord.Alike : LogRecord → LogRecord → Prop where
  | same (record : LogRecord) : Alike record record
  | step {a b : UInt16} (h : Alias a b) (word : UInt16) (i : Instruction) :
    Alike (.step a word i) (.step b word i)

namespace Machine

variable {κ ρ : Type}

/-- Two machines that differ at most in the high four bits of the index register, the program
counter and the return addresses, and in what no program can read: stale slots of the stack and the
beeps so far. -/
structure Aliased (m n : Machine κ ρ) : Prop where
  v : m.cpu.v = n.cpu.v
  index : Alias m.cpu.index n.cpu.index
  pc : Alias m.cpu.pc n.cpu.pc
  stack : m.cpu.stack.Aliased n.cpu.stack
  delay : m.cpu.delay = n.cpu.delay
  sound : m.cpu.sound = n.cpu.sound
  memory : m.memory = n.memory
  display : m.display = n.display
  keys : m.keys = n.keys
  random : m.random = n.random

variable {m n : Machine κ ρ}

theorem Aliased.drawn (h : Aliased m n) (x y rows : UInt8) : m.drawn x y rows = n.drawn x y rows := by
  simp only [Machine.drawn, h.v, h.display, h.memory, h.index.readBlock_eq]

theorem Aliased.memoryAfter (h : Aliased m n) (i : Instruction) :
    m.memoryAfter i = n.memoryAfter i := by
  cases i with
  | decimal x => simp only [Machine.memoryAfter, h.v, h.memory, h.index.writeBlock_eq]
  | storeBlock x => simp only [Machine.memoryAfter, h.v, h.memory, h.index.writeBlock_eq]
  | _ => exact h.memory

theorem Aliased.displayAfter (h : Aliased m n) (i : Instruction) :
    m.displayAfter i = n.displayAfter i := by
  cases i with
  | clear => rfl
  | draw x y rows => simp only [Machine.displayAfter, h.drawn, h.display]
  | _ => exact h.display

theorem Aliased.delayAfter (h : Aliased m n) (i : Instruction) :
    m.delayAfter i = n.delayAfter i := by
  cases i with
  | setDelay x => simp only [Machine.delayAfter, h.v]
  | _ => exact h.delay

theorem Aliased.soundAfter (h : Aliased m n) (i : Instruction) :
    m.soundAfter i = n.soundAfter i := by
  cases i with
  | setSound x => simp only [Machine.soundAfter, h.v]
  | _ => exact h.sound

theorem Aliased.indexAfter (h : Aliased m n) (i : Instruction) :
    Alias (m.indexAfter i) (n.indexAfter i) := by
  cases i with
  | setIndex addr => exact Alias.refl addr
  | addIndex x =>
    simp only [Machine.indexAfter, h.v]
    exact h.index.add _
  | glyph x =>
    simp only [Machine.indexAfter, h.v]
    exact Alias.refl _
  | storeBlock x =>
    simp only [Machine.indexAfter]
    split
    · exact (h.index.add _).add 1
    · exact h.index
  | loadBlock x => exact (h.index.add _).add 1
  | _ => exact h.index

theorem Aliased.stackAfter (h : Aliased m n) (i : Instruction) :
    (m.stackAfter i).Aliased (n.stackAfter i) := by
  cases i with
  | ret =>
    rcases h.stack.pop with ⟨a, b, s', t', hs, ht, -, hst⟩ | ⟨f, hs, ht⟩
    · simpa only [Machine.stackAfter, hs, ht] using hst
    · simpa only [Machine.stackAfter, hs, ht] using h.stack
  | call addr =>
    rcases h.stack.push h.pc with ⟨s', t', hs, ht, hst⟩ | ⟨f, g, hs, ht⟩
    · simpa only [Machine.stackAfter, hs, ht] using hst
    · simpa only [Machine.stackAfter, hs, ht] using h.stack
  | _ => exact h.stack

theorem Aliased.randomAfter [RandomSource ρ] (h : Aliased m n) (i : Instruction) :
    m.randomAfter i = n.randomAfter i := by
  cases i with
  | random x nn => simp only [Machine.randomAfter, h.random]
  | _ => exact h.random

theorem Aliased.fetched (h : Aliased m n) : Aliased m.fetched n.fetched :=
  { h with pc := h.pc.add Processor.wordSize }

/-- Two turns, of `m` and of `n`, that cannot be told apart. -/
structure TurnsAlike (m n : Machine κ ρ) (t u : Turn κ ρ) : Prop where
  outcome : t.outcome = u.outcome
  beeps : ∃ played, t.machine.beeps = m.beeps + played ∧ u.machine.beeps = n.beeps + played
  log : List.Forall₂ LogRecord.Alike t.log u.log
  machine : Aliased t.machine u.machine

theorem Aliased.nextWord_eq (h : Aliased m n) : m.nextWord = n.nextWord := by
  rw [nextWord, nextWord, h.memory, h.pc.readWord_eq]

theorem forall₂_alike_self (log : List LogRecord) : List.Forall₂ LogRecord.Alike log log :=
  List.forall₂_same.mpr fun record _ => .same record

theorem Aliased.loadFrom (h : Aliased m n) (source : ByteSource) :
    TurnsAlike m n (m.loadFrom source) (n.loadFrom source) := by
  unfold Machine.loadFrom
  rw [h.memory]
  cases n.memory.loadFrom source with
  | error f => exact ⟨rfl, ⟨0, rfl, rfl⟩, .nil, h⟩
  | ok loaded =>
    exact ⟨rfl, ⟨0, rfl, rfl⟩, forall₂_alike_self _,
      { h with pc := Alias.refl programStart, memory := rfl }⟩

/-- A frame sees the timers only. -/
theorem Aliased.tick (h : Aliased m n) : TurnsAlike m n m.tick n.tick := by
  have hcpu (p : Processor) : p.tick = (p.sound.tick.1,
      { p with delay := p.delay.tick.2, sound := p.sound.tick.2 }) := rfl
  unfold Machine.tick
  rw [hcpu, hcpu, h.sound, h.delay]
  cases n.cpu.sound.tick.1 with
  | false => exact ⟨rfl, ⟨0, rfl, rfl⟩, .nil, { h with delay := rfl, sound := rfl }⟩
  | true =>
    exact ⟨rfl, ⟨1, rfl, rfl⟩, forall₂_alike_self _, { h with delay := rfl, sound := rfl }⟩

variable [Keypad κ]

theorem Aliased.test (h : Aliased m n) (condition : Condition) :
    m.test condition = n.test condition := by
  cases condition <;> simp only [Machine.test, h.v, h.keys]

theorem Aliased.keysAfter (h : Aliased m n) (i : Instruction) :
    m.keysAfter i = n.keysAfter i := by
  cases i with
  | skip condition => exact congrArg Reading.keys (h.test condition)
  | awaitKey x => simp only [Machine.keysAfter, h.keys]
  | _ => exact h.keys

theorem Aliased.logOf (h : Aliased m n) (i : Instruction) : m.logOf i = n.logOf i := by
  cases i with
  | skip condition => exact congrArg Reading.log (h.test condition)
  | awaitKey x => simp only [Machine.logOf, h.keys]
  | _ => rfl

theorem Aliased.ending (h : Aliased m n) (i : Instruction) : m.ending i = n.ending i := by
  cases i with
  | ret =>
    rcases h.stack.pop with ⟨a, b, s', t', hs, ht, -, -⟩ | ⟨f, hs, ht⟩
    · simp only [Machine.ending, hs, ht]
    · simp only [Machine.ending, hs, ht]
  | call addr =>
    rcases h.stack.push h.pc with ⟨s', t', hs, ht, -⟩ | ⟨f, g, hs, ht⟩
    · simp only [Machine.ending, hs, ht]
    · simp only [Machine.ending, hs, ht]
  | awaitKey x => simp only [Machine.ending, h.keys]
  | _ => rfl

theorem Aliased.pcAfter (h : Aliased m n) (i : Instruction) :
    Alias (m.pcAfter i) (n.pcAfter i) := by
  cases i with
  | ret =>
    rcases h.stack.pop with ⟨a, b, s', t', hs, ht, hab, -⟩ | ⟨f, hs, ht⟩
    · simpa only [Machine.pcAfter, hs, ht] using hab
    · simpa only [Machine.pcAfter, hs, ht] using h.pc
  | jump addr => exact Alias.refl addr
  | call addr =>
    rcases h.stack.push h.pc with ⟨s', t', hs, ht, -⟩ | ⟨f, g, hs, ht⟩
    · simpa only [Machine.pcAfter, hs, ht] using Alias.refl addr
    · simpa only [Machine.pcAfter, hs, ht] using h.pc
  | jumpOffset addr =>
    simp only [Machine.pcAfter, h.v]
    exact Alias.refl _
  | skip condition =>
    simp only [Machine.pcAfter, h.test]
    split
    · exact h.pc.add _
    · exact h.pc
  | _ => exact h.pc

variable [RandomSource ρ]

theorem Aliased.registersAfter (h : Aliased m n) (i : Instruction) :
    m.registersAfter i = n.registersAfter i := by
  cases i with
  | random x nn => simp only [Machine.registersAfter, h.v, h.random]
  | draw x y rows => simp only [Machine.registersAfter, h.v, h.drawn]
  | getDelay x => simp only [Machine.registersAfter, h.v, h.delay]
  | awaitKey x => simp only [Machine.registersAfter, h.v, h.keys]
  | loadBlock x =>
    simp only [Machine.registersAfter, h.v, h.memory, h.index.readBlock_eq]
  | _ => simp only [Machine.registersAfter, h.v]

/-- An instruction leaves machines that again differ in high bits alone. -/
theorem Aliased.machineAfter (h : Aliased m n) (i : Instruction) :
    Aliased (m.machineAfter i) (n.machineAfter i) where
  v := h.registersAfter i
  index := h.indexAfter i
  pc := h.pcAfter i
  stack := h.stackAfter i
  delay := h.delayAfter i
  sound := h.soundAfter i
  memory := h.memoryAfter i
  display := h.displayAfter i
  keys := h.keysAfter i
  random := h.randomAfter i

theorem Aliased.step (h : Aliased m n) : TurnsAlike m n m.step n.step := by
  have hnext := h.nextWord_eq
  cases hw : Instruction.ofWord? m.nextWord with
  | none =>
    have hw' : Instruction.ofWord? n.nextWord = none := hnext ▸ hw
    rw [step_of_unknown hw, step_of_unknown hw', hnext]
    exact ⟨rfl, ⟨0, rfl, rfl⟩, .nil, h.fetched⟩
  | some i =>
    have hw' : Instruction.ofWord? n.nextWord = some i := hnext ▸ hw
    rw [step_of_known hw, step_of_known hw', hnext, h.fetched.ending, h.fetched.logOf]
    exact ⟨rfl, ⟨0, rfl, rfl⟩, .cons (.step h.pc _ i) (forall₂_alike_self _),
      h.fetched.machineAfter i⟩

/-- One action of two machines that differ in high bits alone. -/
theorem Aliased.act (h : Aliased m n) (a : Action) : TurnsAlike m n (m.act a) (n.act a) := by
  cases a with
  | load source => exact h.loadFrom source
  | step => exact h.step
  | tick => exact h.tick

/-- The run lemma. -/
theorem Aliased.after (h : Aliased m n) (session : List Action) :
    Aliased (m.after session) (n.after session) := by
  induction session generalizing m n with
  | nil => exact h
  | cons a rest ih => exact ih (h.act a).machine

/-- **The high bits of addresses never matter.** Two machines that differ in them alone still do so
at every point of any session, and whatever is done next ends alike on both, with the same beeps and
the same log but for the address of a step. -/
theorem high_bits_never_matter (h : Aliased m n) (session : List Action) :
    Aliased (m.after session) (n.after session) ∧
      ∀ a, TurnsAlike (m.after session) (n.after session)
        ((m.after session).act a) ((n.after session).act a) :=
  ⟨h.after session, (h.after session).act⟩

/-- Two machines within a subroutine, one of them with high bits in every address and with a stale
return address, return alike to the same byte. -/
theorem high_bits_never_matter_on_return :
    let keys : ScriptedKeys := ⟨[], [], 0, none⟩
    let random : ScriptedRandom := ⟨[], 0⟩
    let program : ByteSource := .ofBytes [0x22, 0x04, 0x00, 0x00, 0x00, 0xee]
    let low := (fresh keys random).after [.load program, .step]
    let high := { low with
      cpu := { low.cpu with
        index := 0xf000
        pc := 0x1204
        stack := ⟨(CallStack.empty.slots.set 0 0x8202).set 1 0x300, 1⟩ } }
    Aliased low high ∧
      (high.after [.step]).cpu.pc = 0x8202 ∧
      Aliased (low.after [.step]) (high.after [.step]) ∧
      TurnsAlike (low.after [.step]) (high.after [.step])
        ((low.after [.step]).act .tick) ((high.after [.step]).act .tick) := by
  intro keys random program low high
  have hlow : low.cpu.index = 0 ∧ low.cpu.pc = 0x204 ∧ low.cpu.stack.size = 1 ∧
      low.cpu.stack.slots[0] = 0x202 := by
    decide +kernel
  obtain ⟨hindex, hpc, hsize, hslot⟩ := hlow
  have hslots : ∀ i, (h : i < 16) → i < low.cpu.stack.size →
      Alias low.cpu.stack.slots[i] high.cpu.stack.slots[i] := by
    intro i hi hin
    obtain rfl : i = 0 := by omega
    rw [hslot]
    show Alias 0x202 0x8202
    decide
  have hindexAlias : Alias low.cpu.index high.cpu.index := by
    rw [hindex]
    show Alias 0 0xf000
    decide
  have hpcAlias : Alias low.cpu.pc high.cpu.pc := by
    rw [hpc]
    show Alias 0x204 0x1204
    decide
  have h : Aliased low high :=
    { v := rfl
      index := hindexAlias
      pc := hpcAlias
      stack := ⟨hsize, hslots⟩
      delay := rfl
      sound := rfl
      memory := rfl
      display := rfl
      keys := rfl
      random := rfl }
  obtain ⟨hafter, hturns⟩ := high_bits_never_matter h [.step]
  exact ⟨h, by decide +kernel, hafter, hturns .tick⟩

end Machine

end Chip8
