import Chip8.Proofs.Checked.Execution
import Chip8.Proofs.Machine.Stepping
import Chip8.Screen.Basic

/-!
# What holds in every state, and which checks never fail

`Sound` holds of a fresh machine and is kept by everything that can be asked of one: loads, steps,
frames, paints, and instructions carried out directly. The sizes of memory and picture are part of
their types. A sound machine passes the checks of whatever it is asked next.
-/

namespace Chip8

namespace Machine

variable {κ ρ : Type}

/-- Pixels are dark or lit, the stack is within its slots, and the countdowns agree with their
flags. -/
structure Sound (m : Machine κ ρ) : Prop where
  binary : m.display.picture.Binary
  stack_le : m.cpu.stack.size ≤ 16
  delay : m.cpu.delay.Consistent
  sound : m.cpu.sound.Consistent

theorem sound_fresh (keys : κ) (random : ρ) : (fresh keys random).Sound where
  binary := Framebuffer.binary_blank
  stack_le := Nat.zero_le 16
  delay := Countdown.consistent_expired
  sound := Countdown.consistent_expired

theorem stackAfter_le {m : Machine κ ρ} (h : m.cpu.stack.size ≤ 16) (i : Instruction) :
    (m.stackAfter i).size ≤ 16 := by
  cases i with
  | ret =>
    cases hp : m.cpu.stack.pop with
    | error f => simpa only [stackAfter, hp] using h
    | ok popped =>
      obtain ⟨-, hsize, hdepth⟩ := CallStack.pending_of_pop hp
      simp only [stackAfter, hp]
      omega
  | call addr =>
    cases hp : m.cpu.stack.push m.cpu.pc with
    | error f => simpa only [stackAfter, hp] using h
    | ok stack =>
      obtain ⟨-, -, hdepth⟩ := CallStack.pending_of_push hp
      simpa only [stackAfter, hp] using hdepth
  | _ => exact h

theorem displayAfter_binary {m : Machine κ ρ} (h : m.display.picture.Binary) (i : Instruction) :
    (m.displayAfter i).picture.Binary := by
  cases i with
  | clear => exact Framebuffer.binary_blank
  | draw x y n =>
    simp only [displayAfter]
    split
    · exact h.draw _ _ _
    · exact h
  | _ => exact h

theorem delayAfter_consistent {m : Machine κ ρ} (h : m.cpu.delay.Consistent) (i : Instruction) :
    (m.delayAfter i).Consistent := by
  cases i with
  | setDelay x => exact Countdown.consistent_ofValue _
  | _ => exact h

theorem soundAfter_consistent {m : Machine κ ρ} (h : m.cpu.sound.Consistent) (i : Instruction) :
    (m.soundAfter i).Consistent := by
  cases i with
  | setSound x => exact Countdown.consistent_ofValue _
  | _ => exact h

theorem Sound.loadFrom {m : Machine κ ρ} (h : m.Sound) (source : ByteSource) :
    (m.loadFrom source).machine.Sound := by
  rw [loadFrom_machine]
  exact ⟨h.binary, h.stack_le, h.delay, h.sound⟩

theorem Sound.tick {m : Machine κ ρ} (h : m.Sound) : m.tick.machine.Sound := by
  rw [tick_machine]
  exact ⟨h.binary, h.stack_le, Countdown.consistent_tick h.delay,
    Countdown.consistent_tick h.sound⟩

variable [Keypad κ] [RandomSource ρ]

theorem Sound.execute {m : Machine κ ρ} (h : m.Sound) (i : Instruction) :
    (m.execute i).machine.Sound := by
  rw [execute_eq]
  exact ⟨displayAfter_binary h.binary i, stackAfter_le h.stack_le i,
    delayAfter_consistent h.delay i, soundAfter_consistent h.sound i⟩

theorem Sound.step {m : Machine κ ρ} (h : m.Sound) : m.step.machine.Sound := by
  have hfetched : m.fetched.Sound := ⟨h.binary, h.stack_le, h.delay, h.sound⟩
  cases hw : Instruction.ofWord? m.nextWord with
  | none =>
    rw [step_of_unknown hw]
    exact hfetched
  | some i =>
    have hexecute := hfetched.execute i
    rw [execute_eq] at hexecute
    rw [step_of_known hw]
    exact hexecute

theorem Sound.act {m : Machine κ ρ} (h : m.Sound) (a : Action) : (m.act a).machine.Sound := by
  cases a with
  | load source => exact h.loadFrom source
  | step => exact h.step
  | tick => exact h.tick

end Machine

/-- What may be asked of a machine in front of a screen. -/
inductive Request where
  | act (action : Action)
  /-- An instruction of some word, carried out directly. -/
  | execute (instruction : Instruction)
      (decoded : ∃ word, Instruction.ofWord? word = some instruction)
  | refresh

namespace Console

variable {κ ρ σ : Type} [Screen σ]

/-- A paint leaves the picture and the processor alone. -/
theorem refresh_sound {c : Console κ ρ σ} (h : c.machine.Sound) : c.refresh.2.machine.Sound := by
  have hpicture : c.refresh.2.machine.display.picture = c.machine.display.picture := by
    simp only [refresh, Display.refresh]
    split
    · split <;> rfl
    · rfl
  refine ⟨?_, h.stack_le, h.delay, h.sound⟩
  rw [hpicture]
  exact h.binary

variable [Keypad κ] [RandomSource ρ]

/-- Does what is asked, and goes on from there however it ended. -/
def serve (c : Console κ ρ σ) : Request → Console κ ρ σ
  | .act action => { c with machine := (c.machine.act action).machine }
  | .execute instruction _ => { c with machine := (c.machine.execute instruction).machine }
  | .refresh => c.refresh.2

/-- The console after all that was asked of it. -/
def after (c : Console κ ρ σ) (requests : List Request) : Console κ ρ σ :=
  requests.foldl serve c

theorem serve_sound {c : Console κ ρ σ} (h : c.machine.Sound) (r : Request) :
    (c.serve r).machine.Sound := by
  cases r with
  | act action => exact h.act action
  | execute instruction decoded => exact h.execute instruction
  | refresh => exact refresh_sound h

theorem after_sound {c : Console κ ρ σ} (h : c.machine.Sound) (requests : List Request) :
    (c.after requests).machine.Sound := by
  induction requests generalizing c with
  | nil => exact h
  | cons r rest ih => exact ih (serve_sound h r)

/-- **No check ever fails.** Whatever has been asked of a fresh machine, its memory and picture have
their sizes, every pixel is dark or lit, the stack is within its slots and the countdowns agree with
their flags; and whatever is asked next passes all its checks, with the result it has without
them. -/
theorem checks_pass (keys : κ) (random : ρ) (screen : σ) (requests : List Request) :
    let m := (Console.mk (Machine.fresh keys random) screen |>.after requests).machine
    (m.memory.bytes.toList.length = 4096 ∧ m.display.picture.pixels.length = 64 * 32 ∧
      (∀ p ∈ m.display.picture.pixels, p = 0 ∨ p = 0xff) ∧ m.cpu.stack.size ≤ 16 ∧
      (m.cpu.delay.completed = true ↔ m.cpu.delay.value = 0) ∧
      (m.cpu.sound.completed = true ↔ m.cpu.sound.value = 0)) ∧
    (∀ a, m.act? a = some (m.act a)) ∧
    (∀ w i, Instruction.ofWord? w = some i → m.execute? i = some (m.execute i)) := by
  intro m
  have h : m.Sound := after_sound (Machine.sound_fresh keys random) requests
  refine ⟨⟨?_, ?_, h.binary, h.stack_le, h.delay, h.sound⟩, fun a => ?_, fun w i hw => ?_⟩
  · exact Vector.length_toList
  · exact Vector.length_toList
  · exact Machine.act?_eq h.stack_le a
  · exact Machine.execute?_eq h.stack_le hw

end Console

end Chip8
