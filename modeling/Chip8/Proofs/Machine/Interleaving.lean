import Chip8.Keypad.Scripted
import Chip8.Proofs.Instruction.Encoding
import Chip8.Proofs.Machine.Stepping

/-!
# Steps and frames in any order

The two timers and the beeps are the clockwork of a machine. A frame moves the clockwork and nothing
else, and of all instructions three alone look at it. A step of any other does the same whatever the
clockwork shows, and leaves it alone. So a schedule of steps and frames without those three comes to
its steps, one after another, beside its frames, in whatever order they were called for.
-/

namespace Chip8

/-- The part of a machine that frames move. -/
structure Clockwork where
  delay : Countdown
  sound : Countdown
  beeps : Nat
  deriving DecidableEq, Repr

namespace Clockwork

def frame (c : Clockwork) : Clockwork where
  delay := c.delay.tick.2
  sound := c.sound.tick.2
  beeps := c.beeps + if c.sound.tick.1 then 1 else 0

/-- What a frame reports. -/
def frameLog (c : Clockwork) : List LogRecord :=
  if c.sound.tick.1 then [.soundExpired] else []

def frames (c : Clockwork) : Nat → Clockwork
  | 0 => c
  | n + 1 => c.frame.frames n

def framesLog (c : Clockwork) : Nat → List LogRecord
  | 0 => []
  | n + 1 => c.frameLog ++ c.frame.framesLog n

end Clockwork

/-- The words FX07, FX15 and FX18, which read or start a timer. -/
def TimerWord (w : UInt16) : Prop :=
  w.toNat / 0x1000 = 0xf ∧ w.toNat % 0x100 ∈ [0x07, 0x15, 0x18]

instance (w : UInt16) : Decidable (TimerWord w) :=
  inferInstanceAs (Decidable (_ ∧ _))

namespace Instruction

/-- The instructions that read or start a timer. -/
def UsesTimer : Instruction → Prop
  | .getDelay _ | .setDelay _ | .setSound _ => True
  | _ => False

theorem timerWord_of_usesTimer {w : UInt16} {i : Instruction} (h : ofWord? w = some i)
    (hu : i.UsesTimer) : TimerWord w := by
  have hcode := (ofWord?_eq_some_iff w i).mp h
  have hword {b : UInt8} (hg : (Fields.ofWord w).group = 0xf) (hn : (Fields.ofWord w).nn = b)
      (hb : b.toNat ∈ [0x07, 0x15, 0x18]) : TimerWord w := by
    rw [Fields.group_eq_iff] at hg
    rw [Fields.nn_eq_iff] at hn
    exact ⟨hg, hn ▸ hb⟩
  cases i with
  | getDelay x => exact hword hcode.1 hcode.2.1 (by decide)
  | setDelay x => exact hword hcode.1 hcode.2.1 (by decide)
  | setSound x => exact hword hcode.1 hcode.2.1 (by decide)
  | _ => exact hu.elim

end Instruction

/-- What a schedule calls for. -/
inductive Beat where
  | step
  | frame
  deriving DecidableEq, Repr

namespace Beat

def action : Beat → Action
  | step => .step
  | frame => .tick

/-- The steps of a schedule. -/
def steps (schedule : List Beat) : List Action :=
  List.replicate (schedule.count .step) .step

theorem steps_cons_step (schedule : List Beat) :
    steps (.step :: schedule) = .step :: steps schedule := by
  rw [steps, List.count_cons_self]
  rfl

theorem steps_cons_frame (schedule : List Beat) : steps (.frame :: schedule) = steps schedule := by
  rw [steps, List.count_cons_of_ne (by decide)]
  rfl

end Beat

namespace Machine

variable {κ ρ : Type}

def clockwork (m : Machine κ ρ) : Clockwork :=
  ⟨m.cpu.delay, m.cpu.sound, m.beeps⟩

/-- The machine with another clockwork. -/
def withClockwork (m : Machine κ ρ) (c : Clockwork) : Machine κ ρ :=
  { m with cpu := { m.cpu with delay := c.delay, sound := c.sound }, beeps := c.beeps }

theorem tick_withClockwork (m : Machine κ ρ) (c : Clockwork) :
    (m.withClockwork c).tick.machine = m.withClockwork c.frame := by
  rw [tick_machine]
  rfl

theorem tick_log (m : Machine κ ρ) : m.tick.log = m.clockwork.frameLog := by
  have hplays : m.clockwork.sound.tick.1 = m.cpu.tick.1 := rfl
  rw [Clockwork.frameLog, hplays]
  unfold tick
  rcases m.cpu.tick with ⟨_ | _, cpu⟩ <;> rfl

variable [Keypad κ]

theorem ending_withClockwork (m : Machine κ ρ) (c : Clockwork) (i : Instruction) :
    (m.withClockwork c).ending i = m.ending i := by
  cases i <;> rfl

theorem logOf_withClockwork (m : Machine κ ρ) (c : Clockwork) (i : Instruction) :
    (m.withClockwork c).logOf i = m.logOf i := by
  cases i <;> rfl

variable [RandomSource ρ]

theorem machineAfter_withClockwork (m : Machine κ ρ) (c : Clockwork) {i : Instruction}
    (h : ¬ i.UsesTimer) :
    (m.withClockwork c).machineAfter i = (m.machineAfter i).withClockwork c := by
  cases i with
  | getDelay x => exact absurd trivial h
  | setDelay x => exact absurd trivial h
  | setSound x => exact absurd trivial h
  | _ => rfl

/-- A step that uses no timer does the same with any clockwork. -/
theorem step_withClockwork {m : Machine κ ρ} (h : ¬ TimerWord m.nextWord) (c : Clockwork) :
    (m.withClockwork c).step =
      ⟨m.step.outcome, m.step.machine.withClockwork c, m.step.log⟩ := by
  have hfetched : (m.withClockwork c).fetched = m.fetched.withClockwork c := rfl
  cases hw : Instruction.ofWord? m.nextWord with
  | none =>
    have hw' : Instruction.ofWord? (m.withClockwork c).nextWord = none := hw
    rw [step_of_unknown hw, step_of_unknown hw']
    rfl
  | some i =>
    have hw' : Instruction.ofWord? (m.withClockwork c).nextWord = some i := hw
    have hi : ¬ i.UsesTimer := fun hu => h (Instruction.timerWord_of_usesTimer hw hu)
    rw [step_of_known hw, step_of_known hw', hfetched, machineAfter_withClockwork _ _ hi,
      ending_withClockwork, logOf_withClockwork]
    rfl

/-- The words that steps fetch. -/
def stepWords (m : Machine κ ρ) : Action → List UInt16
  | .step => [m.nextWord]
  | _ => []

/-- How steps end. -/
def stepOutcomes (m : Machine κ ρ) : Action → List Outcome
  | .step => [m.step.outcome]
  | _ => []

def logLines (m : Machine κ ρ) (a : Action) : List LogRecord :=
  (m.act a).log

/-- No step of the session uses a timer. -/
def Untimed (m : Machine κ ρ) (session : List Action) : Prop :=
  ∀ w ∈ history stepWords m session, ¬ TimerWord w

theorem untimed_step {m : Machine κ ρ} {session : List Action} :
    m.Untimed (.step :: session) ↔ ¬ TimerWord m.nextWord ∧ m.step.machine.Untimed session :=
  List.forall_mem_cons

variable {m : Machine κ ρ} {c : Clockwork} {schedule : List Beat}

/-- Whether a schedule uses a timer is seen from its steps alone. -/
theorem untimed_iff : (m.withClockwork c).Untimed (schedule.map Beat.action) ↔
    m.Untimed (Beat.steps schedule) := by
  induction schedule generalizing m c with
  | nil => exact Iff.rfl
  | cons beat rest ih =>
    cases beat with
    | step =>
      rw [Beat.steps_cons_step, List.map_cons, Beat.action, untimed_step, untimed_step]
      refine and_congr_right fun (hword : ¬ TimerWord m.nextWord) => ?_
      rw [step_withClockwork hword]
      exact ih
    | frame =>
      have hframe : (m.withClockwork c).Untimed ((Beat.frame :: rest).map Beat.action) ↔
          (m.withClockwork c).tick.machine.Untimed (rest.map Beat.action) := Iff.rfl
      rw [Beat.steps_cons_frame, hframe, tick_withClockwork]
      exact ih

/-- A schedule without timers comes to its steps, beside as many frames of the clockwork. -/
structure Separates (m : Machine κ ρ) (c : Clockwork) (schedule : List Beat) : Prop where
  outcomes : history stepOutcomes (m.withClockwork c) (schedule.map Beat.action) =
    history stepOutcomes m (Beat.steps schedule)
  after : (m.withClockwork c).after (schedule.map Beat.action) =
    (m.after (Beat.steps schedule)).withClockwork (c.frames (schedule.count .frame))
  log : (history logLines (m.withClockwork c) (schedule.map Beat.action)).Perm
    (history logLines m (Beat.steps schedule) ++ c.framesLog (schedule.count .frame))

theorem Separates.step (hword : ¬ TimerWord m.nextWord)
    (h : Separates m.step.machine c schedule) : Separates m c (.step :: schedule) := by
  have hstep := step_withClockwork hword c
  have hmachine : (m.withClockwork c).step.machine = m.step.machine.withClockwork c := by rw [hstep]
  have hframes : (Beat.step :: schedule).count .frame = schedule.count .frame :=
    List.count_cons_of_ne (by decide)
  refine ⟨?_, ?_, ?_⟩
  · show (m.withClockwork c).step.outcome ::
      history stepOutcomes (m.withClockwork c).step.machine (schedule.map Beat.action) = _
    rw [hmachine, h.outcomes, hstep, Beat.steps_cons_step]
    rfl
  · show (m.withClockwork c).step.machine.after (schedule.map Beat.action) = _
    rw [hmachine, h.after, Beat.steps_cons_step, hframes]
    rfl
  · show ((m.withClockwork c).step.log ++
      history logLines (m.withClockwork c).step.machine (schedule.map Beat.action)).Perm _
    rw [hmachine, hstep, Beat.steps_cons_step, hframes, history, List.append_assoc]
    exact h.log.append_left _

theorem Separates.frame (h : Separates m c.frame schedule) :
    Separates m c (.frame :: schedule) := by
  have hmachine := tick_withClockwork m c
  have hframes : (Beat.frame :: schedule).count .frame = schedule.count .frame + 1 :=
    List.count_cons_self
  refine ⟨?_, ?_, ?_⟩
  · show history stepOutcomes (m.withClockwork c).tick.machine (schedule.map Beat.action) = _
    rw [hmachine, h.outcomes, Beat.steps_cons_frame]
  · show (m.withClockwork c).tick.machine.after (schedule.map Beat.action) = _
    rw [hmachine, h.after, Beat.steps_cons_frame, hframes]
    rfl
  · show ((m.withClockwork c).tick.log ++
      history logLines (m.withClockwork c).tick.machine (schedule.map Beat.action)).Perm _
    rw [hmachine, tick_log, Beat.steps_cons_frame, hframes]
    -- the line of this frame moves behind those of all steps
    calc (c.frameLog ++ history logLines (m.withClockwork c.frame) (schedule.map Beat.action)).Perm
          (c.frameLog ++ (history logLines m (Beat.steps schedule) ++
            c.frame.framesLog (schedule.count .frame))) := h.log.append_left _
      List.Perm _ (history logLines m (Beat.steps schedule) ++
          (c.frameLog ++ c.frame.framesLog (schedule.count .frame))) := by
        rw [← List.append_assoc, ← List.append_assoc]
        exact List.perm_append_comm.append_right _

/-- The run lemma. -/
theorem separates (h : m.Untimed (Beat.steps schedule)) (c : Clockwork) :
    Separates m c schedule := by
  induction schedule generalizing m c with
  | nil => exact ⟨rfl, rfl, .refl _⟩
  | cons beat rest ih =>
    cases beat with
    | step =>
      rw [Beat.steps_cons_step, untimed_step] at h
      exact (ih h.2 c).step h.1
    | frame =>
      rw [Beat.steps_cons_frame] at h
      exact (ih h c.frame).frame

/-- **The order of steps and frames does not matter.** Take two schedules with as many steps and as
many frames. If no step along the first uses a timer, then none along the second does, the steps end
alike one by one, and both leave the same machine, with the same lines in the log up to their order.
In particular a frame may pass before or after any one step that uses no timer. -/
theorem order_of_frames_does_not_matter (m : Machine κ ρ) (first second : List Beat)
    (hsteps : first.count .step = second.count .step)
    (hframes : first.count .frame = second.count .frame)
    (huntimed : m.Untimed (first.map Beat.action)) :
    m.Untimed (second.map Beat.action) ∧
      history stepOutcomes m (first.map Beat.action) =
        history stepOutcomes m (second.map Beat.action) ∧
      m.after (first.map Beat.action) = m.after (second.map Beat.action) ∧
      (history logLines m (first.map Beat.action)).Perm
        (history logLines m (second.map Beat.action)) ∧
      (¬ TimerWord m.nextWord →
        m.tick.machine.step.outcome = m.step.outcome ∧
          m.tick.machine.step.machine = m.step.machine.tick.machine) := by
  have hsame : Beat.steps first = Beat.steps second := by rw [Beat.steps, Beat.steps, hsteps]
  have halone : m.Untimed (Beat.steps first) := (untimed_iff (c := m.clockwork)).mp huntimed
  have h₁ : Separates m m.clockwork first := separates halone _
  have h₂ : Separates m m.clockwork second := separates (hsame ▸ halone) _
  refine ⟨(untimed_iff (c := m.clockwork)).mpr (hsame ▸ halone), ?_, ?_, ?_, fun hword => ?_⟩
  · exact h₁.outcomes.trans (hsame ▸ h₂.outcomes.symm)
  · have hafter := h₁.after
    rw [hsame, hframes, ← h₂.after] at hafter
    exact hafter
  · have hlog := h₁.log
    rw [hsame, hframes] at hlog
    exact hlog.trans h₂.log.symm
  · have hkept : m.step.machine = m.step.machine.withClockwork m.clockwork :=
      congrArg Turn.machine (step_withClockwork hword m.clockwork)
    have hframe : m.tick.machine = m.withClockwork m.clockwork.frame :=
      tick_withClockwork m m.clockwork
    have hafter := tick_withClockwork m.step.machine m.clockwork
    rw [← hkept] at hafter
    rw [hframe, step_withClockwork hword]
    exact ⟨rfl, hafter.symm⟩

/-- The sound timer runs out, and a return fails, wherever the frames come between the steps. -/
theorem order_of_frames_does_not_matter_while_beeping :
    let program : ByteSource := .ofBytes [0x60, 0x02, 0xf0, 0x18, 0x00, 0xee, 0x70, 0x01]
    let m := (fresh (⟨[], [], 0, none⟩ : ScriptedKeys) (⟨[], 0⟩ : ScriptedRandom)).after
      [.load program, .step, .step]
    let first : List Beat := [.step, .step, .frame, .frame, .step]
    let second : List Beat := [.frame, .step, .frame, .step, .step]
    (first.count .step = second.count .step ∧ first.count .frame = second.count .frame ∧
        m.Untimed (first.map Beat.action)) ∧
      history stepOutcomes m (first.map Beat.action) =
        [.faults .stackUnderflow, .proceeds, .proceeds] ∧
      history stepOutcomes m (first.map Beat.action) =
        history stepOutcomes m (second.map Beat.action) ∧
      (m.after (first.map Beat.action)).beeps = 1 ∧
      m.after (first.map Beat.action) = m.after (second.map Beat.action) := by
  intro program m first second
  have hsteps : first.count .step = second.count .step := by decide
  have hframes : first.count .frame = second.count .frame := by decide
  have huntimed : m.Untimed (first.map Beat.action) := by
    have hwords : history stepWords m (first.map Beat.action) = [0x00ee, 0x7001, 0x0000] := by
      decide +kernel
    rw [Untimed, hwords, List.forall_mem_cons, List.forall_mem_cons, List.forall_mem_singleton]
    decide
  obtain ⟨-, houtcomes, hafter, -⟩ :=
    order_of_frames_does_not_matter m first second hsteps hframes huntimed
  exact ⟨⟨hsteps, hframes, huntimed⟩, by decide +kernel, houtcomes, by decide +kernel, hafter⟩

end Machine

end Chip8
