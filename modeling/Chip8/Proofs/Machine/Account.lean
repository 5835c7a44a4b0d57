import Mathlib.Data.List.Forall2
import Chip8.Proofs.Machine.Devices
import Chip8.Proofs.Machine.Loading
import Chip8.Proofs.Machine.Outcome
import Chip8.Proofs.Text.TraceLine

/-!
# The log as an account of a session

With keys that report nothing of their own, what a session logs is its account: a trace line for
each step that gets as far as its instruction, one line for each beep, each quit and each load. An
action logs only of itself (`step_lines`, `tick_lines`, `load_lines`). What the lines of a stretch
of a session have to say of it (`Accounts`) holds of two stretches in a row when it holds of each
(`Accounts.append`), and so of a session when it holds of its actions (`lines_account`).
-/

namespace Chip8

/-- A line of the log, as it is written. -/
abbrev LogLine : Type := LogLevel × String

def LogRecord.line (r : LogRecord) : LogLine :=
  (r.level, r.text)

/-- Whether an outcome is the refusal of a word. -/
def Outcome.isUnsupported : Outcome → Bool
  | .faults (.unsupportedWord _) => true
  | _ => false

namespace LogLine

def expired : LogLine :=
  (.debug, "sound timer expired")

def quit : LogLine :=
  (.debug, "quit while waiting for a key")

def loaded (size : Nat) : LogLine :=
  (.info, "loaded " ++ size.repr ++ " byte ROM at 0x200")

end LogLine

namespace Machine

section Contributions

variable {κ ρ : Type} [Keypad κ]

/-- No instruction ends in the refusal of a word: only a word without one does. -/
theorem ending_isUnsupported (m : Machine κ ρ) (i : Instruction) :
    (m.ending i).isUnsupported = false := by
  cases i with
  | ret =>
    simp only [ending, CallStack.pop]
    split
    · rfl
    · next f hpop =>
      split at hpop
      · cases hpop
        rfl
      · split at hpop <;> cases hpop
        rfl
  | call addr =>
    simp only [ending]
    split <;> rfl
  | awaitKey x =>
    simp only [ending]
    split <;> rfl
  | draw x y n =>
    simp only [ending]
    split <;> rfl
  | storeBlock x =>
    simp only [ending]
    split <;> rfl
  | _ => rfl

variable [RandomSource ρ]

/-- The lines that an action logs. -/
def actLines (m : Machine κ ρ) (a : Action) : List LogLine :=
  (m.act a).log.map LogRecord.line

/-- The lines that a session logs, in order. -/
def lines (m : Machine κ ρ) (session : List Action) : List LogLine :=
  history actLines m session

/-- A step that is not refused for its word, given by the machine that it finds. -/
def supportedSteps (m : Machine κ ρ) : Action → List (Machine κ ρ)
  | .step => if m.step.outcome.isUnsupported then [] else [m]
  | .load _ | .tick => []

/-- A step that quits, given by the machine that it finds. -/
def quittingSteps (m : Machine κ ρ) : Action → List (Machine κ ρ)
  | .step => if m.step.outcome = .quits then [m] else []
  | .load _ | .tick => []

/-- The size of the program that an action loads. -/
def loadedSizes (m : Machine κ ρ) : Action → List Nat
  | .load source =>
    if (m.loadFrom source).outcome = .proceeds then [source.chunks.flatten.length] else []
  | .step | .tick => []

/-- A line is the trace of a step from a machine: it is read back as the program counter there, the
word that lies there and the mnemonic of the instruction that the word names. -/
def Traces (line : LogLine) (m : Machine κ ρ) : Prop :=
  line.1 = .trace ∧ ∃ i, Instruction.ofWord? (m.memory.readWord m.cpu.pc) = some i ∧
    TraceLine.ofText? line.2 = some ⟨m.cpu.pc, m.memory.readWord m.cpu.pc, i.mnemonic⟩

theorem lines_append (m : Machine κ ρ) (s t : List Action) :
    m.lines (s ++ t) = m.lines s ++ (m.after s).lines t :=
  history_append actLines m s t

theorem isUnsupported_step_iff (m : Machine κ ρ) :
    m.step.outcome.isUnsupported = true ↔ Instruction.ofWord? m.nextWord = none := by
  rw [step_outcome]
  cases Instruction.ofWord? m.nextWord with
  | none => exact ⟨fun _ => rfl, fun _ => rfl⟩
  | some i => rw [ending_isUnsupported]; exact ⟨nofun, nofun⟩

end Contributions

variable {ρ : Type}

/-- Scripted keys report nothing, so an instruction logs nothing but a quit. -/
theorem logOf_scripted (m : Machine ScriptedKeys ρ) (i : Instruction) :
    m.logOf i = if m.ending i = .quits then [.quitWhileWaiting] else [] := by
  by_cases hquits : m.ending i = .quits
  · obtain ⟨⟨x, rfl⟩, hanswer⟩ := quits_iff.mp hquits
    rw [if_pos hquits]
    cases hqueue : m.keys.queue with
    | nil => simp only [logOf, ScriptedKeys.awaitKey_of_empty hqueue, List.nil_append]
    | cons key rest =>
      rw [ScriptedKeys.awaitKey_of_queued hqueue] at hanswer
      cases hanswer
  · rw [if_neg hquits]
    cases i with
    | skip condition => cases condition <;> rfl
    | awaitKey x =>
      cases hqueue : m.keys.queue with
      | nil =>
        exact absurd
          (quits_iff.mpr ⟨⟨x, rfl⟩, by rw [ScriptedKeys.awaitKey_of_empty hqueue]⟩) hquits
      | cons key rest => simp only [logOf, ScriptedKeys.awaitKey_of_queued hqueue]
    | _ => rfl

section Actions

variable [RandomSource ρ]

/-- A step logs its trace, and directly behind it that it quits. A step that is refused for its word
logs nothing. -/
theorem step_lines (m : Machine ScriptedKeys ρ) :
    (m.step.outcome.isUnsupported = true ∧ m.actLines .step = []) ∨
      (m.step.outcome.isUnsupported = false ∧ ∃ line, Traces line m ∧
        m.actLines .step = line :: if m.step.outcome = .quits then [LogLine.quit] else []) := by
  cases hw : Instruction.ofWord? m.nextWord with
  | none =>
    refine .inl ⟨(isUnsupported_step_iff m).mpr hw, ?_⟩
    rw [actLines, act, step_of_unknown hw]
    rfl
  | some i =>
    refine .inr ⟨?_, (LogRecord.step m.cpu.pc m.nextWord i).line, ⟨rfl, i, hw, ?_⟩, ?_⟩
    · rw [step_outcome, hw, ending_isUnsupported]
    · exact (TraceLine.ofText?_eq_some_iff _ _).mpr rfl
    · rw [actLines, act, step_of_known hw, logOf_scripted]
      split <;> rfl

/-- A frame logs that the sound timer ran out on it, and nothing else. -/
theorem tick_lines {κ : Type} [Keypad κ] (m : Machine κ ρ) :
    m.actLines .tick = if m.cpu.sound.tick.1 then [LogLine.expired] else [] := by
  have hplays : m.cpu.sound.tick.1 = m.cpu.tick.1 := rfl
  rw [hplays, actLines, act, tick]
  rcases m.cpu.tick with ⟨_ | _, cpu⟩ <;> rfl

/-- A load logs the size of what it loaded, and nothing if it failed. -/
theorem load_lines {κ : Type} [Keypad κ] (m : Machine κ ρ) (source : ByteSource) :
    m.actLines (.load source) = (m.loadedSizes (.load source)).map LogLine.loaded := by
  rw [actLines, act, loadedSizes, loadFrom_eq, ByteSource.contents]
  cases source.failure with
  | some reason => rfl
  | none =>
    rcases Nat.lt_or_ge 3584 source.chunks.flatten.length with hexcess | hfits
    · simp only [m.load_of_excess hexcess]
      rfl
    · have hline : (LogRecord.loaded source.chunks.flatten.length).line =
          LogLine.loaded source.chunks.flatten.length := by
        have hplace : " byte ROM at " ++ Hex.address programStart = " byte ROM at 0x200" := by
          decide +kernel
        simp only [LogRecord.line, LogRecord.level, LogRecord.text, LogLine.loaded,
          String.append_assoc, hplace]
      simp only [m.load_of_fits hfits, ↓reduceIte, List.map_cons, List.map_nil, hline]

end Actions

/-- The lines of a stretch of a session answer, kind by kind, for what happened in it. -/
structure Accounts (log : List LogLine) (traced quitting : List (Machine ScriptedKeys ρ))
    (sizes : List Nat) (before after : Nat) : Prop where
  traces : List.Forall₂ Traces (log.filter (·.1 = .trace)) traced
  quits : log.count LogLine.quit = quitting.length
  loads : log.filter (·.1 = .info) = sizes.map LogLine.loaded
  beeps : after = before + log.count LogLine.expired
  kinds : ∀ line ∈ log,
    line.1 = .trace ∨ line.1 = .info ∨ line = LogLine.expired ∨ line = LogLine.quit

variable {log log' : List LogLine}
  {traced traced' quitting quitting' : List (Machine ScriptedKeys ρ)}
  {sizes sizes' : List Nat} {before between after : Nat}

/-- Nothing happened, and nothing was logged. -/
theorem accounts_nil : Accounts (ρ := ρ) [] [] [] [] before before where
  traces := .nil
  quits := rfl
  loads := rfl
  beeps := rfl
  kinds := nofun

theorem Accounts.append (h : Accounts log traced quitting sizes before between)
    (h' : Accounts log' traced' quitting' sizes' between after) :
    Accounts (log ++ log') (traced ++ traced') (quitting ++ quitting') (sizes ++ sizes')
      before after where
  traces := by
    rw [List.filter_append]
    exact List.rel_append h.traces h'.traces
  quits := by rw [List.count_append, List.length_append, h.quits, h'.quits]
  loads := by rw [List.filter_append, List.map_append, h.loads, h'.loads]
  beeps := by rw [List.count_append, h'.beeps, h.beeps, Nat.add_assoc]
  kinds := by
    intro line hline
    exact (List.mem_append.mp hline).elim (h.kinds line) (h'.kinds line)

variable [RandomSource ρ]

/-- The lines of an action answer for that action. -/
abbrev ActAccounts (m : Machine ScriptedKeys ρ) (a : Action) : Prop :=
  Accounts (m.actLines a) (m.supportedSteps a) (m.quittingSteps a) (m.loadedSizes a) m.beeps
    (m.act a).machine.beeps

theorem load_accounts (m : Machine ScriptedKeys ρ) (source : ByteSource) :
    m.ActAccounts (.load source) := by
  have hbeeps : (m.act (.load source)).machine.beeps = m.beeps := by
    rw [act, loadFrom_machine]
  rw [ActAccounts, load_lines, hbeeps, supportedSteps, quittingSteps, loadedSizes]
  split
  · exact ⟨.nil, rfl, rfl, rfl, by simp [LogLine.loaded]⟩
  · exact accounts_nil

theorem tick_accounts (m : Machine ScriptedKeys ρ) : m.ActAccounts .tick := by
  have hbeeps : (m.act .tick).machine.beeps = m.beeps + if m.cpu.sound.tick.1 then 1 else 0 := by
    rw [act, tick_machine]
  rw [ActAccounts, tick_lines, hbeeps, supportedSteps, quittingSteps, loadedSizes]
  split
  · exact ⟨.nil, rfl, rfl, rfl, by simp⟩
  · exact accounts_nil

theorem step_accounts (m : Machine ScriptedKeys ρ) : m.ActAccounts .step := by
  have hbeeps : (m.act .step).machine.beeps = m.beeps := by
    rw [act, step_machine]
    split <;> rfl
  rw [ActAccounts, hbeeps, supportedSteps, quittingSteps, loadedSizes]
  rcases m.step_lines with ⟨hrefused, hlines⟩ | ⟨hknown, ⟨level, text⟩, htraces, hlines⟩
  · have hgoes : m.step.outcome ≠ .quits := by
      intro hquits
      rw [hquits] at hrefused
      cases hrefused
    rw [hrefused, hlines, if_neg hgoes]
    exact accounts_nil
  · obtain rfl : level = .trace := htraces.1
    rw [hknown, hlines]
    split
    · refine ⟨.cons htraces .nil, ?_, rfl, ?_, ?_⟩ <;> simp [LogLine.quit, LogLine.expired]
    · refine ⟨.cons htraces .nil, ?_, rfl, ?_, ?_⟩ <;> simp [LogLine.quit, LogLine.expired]

theorem act_accounts (m : Machine ScriptedKeys ρ) (a : Action) : m.ActAccounts a := by
  cases a with
  | load source => exact m.load_accounts source
  | step => exact m.step_accounts
  | tick => exact m.tick_accounts

/-- The lines of a session answer for it, since those of each action do. -/
theorem lines_account (m : Machine ScriptedKeys ρ) (session : List Action) :
    Accounts (m.lines session) (history supportedSteps m session)
      (history quittingSteps m session) (history loadedSizes m session) m.beeps
      (m.after session).beeps := by
  induction session generalizing m with
  | nil => exact accounts_nil
  | cons a rest ih => exact (m.act_accounts a).append (ih (m.act a).machine)

/-- A step that quits logs that directly behind its trace, wherever it stands in a session. -/
theorem lines_at_quit (m : Machine ScriptedKeys ρ) (pre post : List Action)
    (hquits : (m.after pre).step.outcome = .quits) :
    ∃ line, Traces line (m.after pre) ∧
      m.lines (pre ++ .step :: post) =
        m.lines pre ++ line :: LogLine.quit :: (m.after (pre ++ [.step])).lines post := by
  rcases (m.after pre).step_lines with ⟨hrefused, -⟩ | ⟨-, line, htraces, hlines⟩
  · rw [hquits] at hrefused
    cases hrefused
  · refine ⟨line, htraces, ?_⟩
    have hstep : (m.after pre).lines (.step :: post) =
        (m.after pre).actLines .step ++ (m.after (pre ++ [.step])).lines post := by
      rw [after_append]
      rfl
    rw [lines_append, hstep, hlines, if_pos hquits]
    rfl

/-- **The log is a faithful account of the session.** The lines of the trace level stand for the
steps that are not refused for their word, one for each and in order, and each is read back, in one
way only, as the address, the word and the mnemonic of its step. The sound timer is said to have run
out once for each beep. A quit is said once for each step that quits, directly behind its trace. A
load is said with its size once for each program that is loaded. Nothing else is said. -/
theorem log_accounts_for_session (m : Machine ScriptedKeys ρ) (session : List Action) :
    let log := m.lines session
    (List.Forall₂ Traces (log.filter (·.1 = .trace)) (history supportedSteps m session) ∧
      ∀ text t, TraceLine.ofText? text = some t ↔ t.text = text) ∧
    (m.after session).beeps = m.beeps + log.count LogLine.expired ∧
    (log.count LogLine.quit = (history quittingSteps m session).length ∧
      ∀ pre post, session = pre ++ .step :: post → (m.after pre).step.outcome = .quits →
        ∃ line, Traces line (m.after pre) ∧
          log = m.lines pre ++ line :: LogLine.quit :: (m.after (pre ++ [.step])).lines post) ∧
    log.filter (·.1 = .info) = (history loadedSizes m session).map LogLine.loaded ∧
    ∀ line ∈ log, line.1 = .trace ∨ line.1 = .info ∨ line = LogLine.expired ∨
      line = LogLine.quit := by
  intro log
  have haccounts := m.lines_account session
  refine ⟨⟨haccounts.traces, TraceLine.ofText?_eq_some_iff⟩, haccounts.beeps,
    ⟨haccounts.quits, ?_⟩, haccounts.loads, haccounts.kinds⟩
  rintro pre post rfl hquits
  exact m.lines_at_quit pre post hquits

/-- A wait with no key left, and a word of group F that nothing knows: both steps leave the machine
behind its word, and only the first is logged. -/
example :
    let m := (fresh (⟨[], [], 0, none⟩ : ScriptedKeys) (⟨[], 0⟩ : ScriptedRandom))
    m.lines [.load (.ofBytes [0xf3, 0x0a, 0xf3, 0x0b]), .step, .step] =
      [LogLine.loaded 4, (.trace, "0x200  f30a  LD V3, K"), LogLine.quit] := by
  decide +kernel

end Machine

end Chip8
