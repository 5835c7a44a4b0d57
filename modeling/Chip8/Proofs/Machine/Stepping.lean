import Chip8.Proofs.Instruction.Encoding
import Chip8.Proofs.Machine.Effects

/-!
# Steps and sessions, taken apart

A step moves past its word and then does what the word's instruction does there; a word that names
no instruction ends it at once. `history` collects what each action of a session contributes, in
order, and is how the laws about whole sessions speak of what has happened so far.
-/

namespace Chip8

namespace Machine

variable {κ ρ : Type}

/-- The machine past its next word, where the word is carried out. -/
def fetched (m : Machine κ ρ) : Machine κ ρ :=
  m.withCpu m.cpu.advance

@[simp] theorem fetched_stack (m : Machine κ ρ) : m.fetched.cpu.stack = m.cpu.stack := rfl

@[simp] theorem fetched_keys (m : Machine κ ρ) : m.fetched.keys = m.keys := rfl

/-- The byte in the register that the second nibble of the next word names. -/
def vx (m : Machine κ ρ) : UInt8 :=
  m.cpu.v.get (.ofNat (m.nextWord.toNat / 0x100 % 0x10))

/-- The byte in the register that the third nibble of the next word names. -/
def vy (m : Machine κ ρ) : UInt8 :=
  m.cpu.v.get (.ofNat (m.nextWord.toNat / 0x10 % 0x10))

theorem fetched_get_x (m : Machine κ ρ) :
    m.fetched.cpu.v.get (Fields.ofWord m.nextWord).x = m.vx :=
  congrArg m.cpu.v.get (Fields.x_eq m.nextWord)

theorem fetched_get_y (m : Machine κ ρ) :
    m.fetched.cpu.v.get (Fields.ofWord m.nextWord).y = m.vy :=
  congrArg m.cpu.v.get (Fields.y_eq m.nextWord)

/-- A load may put a program into memory and move the processor to its start, and does nothing
else. -/
theorem loadFrom_machine (m : Machine κ ρ) (s : ByteSource) :
    (m.loadFrom s).machine = { m with
      cpu := m.cpu.jump (m.loadFrom s).machine.cpu.pc
      memory := (m.loadFrom s).machine.memory } := by
  unfold loadFrom
  cases m.memory.loadFrom s <;> rfl

theorem loadFrom_cpu (m : Machine κ ρ) (s : ByteSource) :
    (m.loadFrom s).machine.cpu = m.cpu.jump (m.loadFrom s).machine.cpu.pc :=
  congrArg Machine.cpu (m.loadFrom_machine s)

/-- Putting the sound timer out on the frame it ran out changes nothing: it is out already. -/
theorem silence_of_expired {p q : Processor} (h : p.tick = (true, q)) : q.silence = q := by
  have hsound : p.sound.tick = (true, q.sound) := by
    rw [Prod.ext_iff] at h ⊢
    exact ⟨h.1, congrArg Processor.sound h.2⟩
  have hq : q.sound = .expired := Countdown.eq_expired_of_tick hsound
  show { q with sound := .expired } = q
  rw [← hq]

/-- A frame counts both timers down, plays the sound once if its timer ran out on it, and does
nothing else. -/
theorem tick_machine (m : Machine κ ρ) :
    m.tick.machine = { m with
      cpu := m.cpu.tick.2
      beeps := m.beeps + if m.cpu.sound.tick.1 then 1 else 0 } := by
  have hplays : m.cpu.sound.tick.1 = m.cpu.tick.1 := rfl
  rw [hplays]
  unfold tick
  rcases h : m.cpu.tick with ⟨_ | _, cpu⟩
  · rfl
  · simp only [silence_of_expired h, ↓reduceIte]

theorem tick_cpu (m : Machine κ ρ) : m.tick.machine.cpu = m.cpu.tick.2 :=
  congrArg Machine.cpu m.tick_machine

variable [Keypad κ] [RandomSource ρ]

/-- A word that names no instruction is passed over and refused. -/
theorem step_of_unknown {m : Machine κ ρ} (h : Instruction.ofWord? m.nextWord = none) :
    m.step = m.fetched.fail (.unsupportedWord m.nextWord) := by
  unfold nextWord at h
  simp only [step, Processor.fetch, h]
  rfl

/-- A word that names an instruction is passed over, logged and carried out. -/
theorem step_of_known {m : Machine κ ρ} {i : Instruction}
    (h : Instruction.ofWord? m.nextWord = some i) :
    m.step = ⟨m.fetched.ending i, m.fetched.machineAfter i,
      .step m.cpu.pc m.nextWord i :: m.fetched.logOf i⟩ := by
  have he : m.step = { m.fetched.execute i with
      log := .step m.cpu.pc m.nextWord i :: (m.fetched.execute i).log } := by
    unfold nextWord at h
    simp only [step, Processor.fetch, h]
    rfl
  rw [he, execute_eq]

/-- What a step leaves is what the word's instruction leaves, or the machine past an unknown word. -/
theorem step_machine (m : Machine κ ρ) :
    m.step.machine =
      match Instruction.ofWord? m.nextWord with
      | some i => m.fetched.machineAfter i
      | none => m.fetched := by
  cases h : Instruction.ofWord? m.nextWord with
  | some i => rw [step_of_known h]
  | none => rw [step_of_unknown h]; rfl

/-- A session may be cut anywhere. -/
theorem after_append (m : Machine κ ρ) (s t : List Action) :
    m.after (s ++ t) = (m.after s).after t := by
  induction s generalizing m with
  | nil => rfl
  | cons a s ih => exact ih (m.act a).machine

/-- What the actions of a session contribute, in order. A contribution may look at the machine
that the action finds. -/
def history {β : Type} (contribution : Machine κ ρ → Action → List β) (m : Machine κ ρ) :
    List Action → List β
  | [] => []
  | a :: rest => contribution m a ++ history contribution (m.act a).machine rest

/-- The history of a session that is cut is put together again. -/
theorem history_append {β : Type} (contribution : Machine κ ρ → Action → List β)
    (m : Machine κ ρ) (s t : List Action) :
    history contribution m (s ++ t) =
      history contribution m s ++ history contribution (m.after s) t := by
  induction s generalizing m with
  | nil => rfl
  | cons a s ih =>
    simp only [List.cons_append, history, ih, List.append_assoc]
    rfl

end Machine

end Chip8
