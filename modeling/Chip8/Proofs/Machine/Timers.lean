import Chip8.Keypad.Scripted
import Chip8.Proofs.Machine.Stepping

/-!
# Timers and beeps over a session

For a timer a session is a history of loads and frames. The history alone tells what the timer
reads (`lastLoad` less `framesSince`), on which frames the sound is played and how often it has been
played by now (`expiries`), whatever else the program does. The three are read off a history searched
from its end or cut at its loads; `Tells` carries them along a run.
-/

namespace Chip8

/-- What happens to a timer. -/
inductive TimerEvent where
  | loaded (v : UInt8)
  | frame
  deriving DecidableEq, Repr

namespace TimerEvent

def loadedValue? : TimerEvent → Option Nat
  | .loaded v => some v.toNat
  | .frame => none

def isFrame : TimerEvent → Bool
  | .loaded _ => false
  | .frame => true

/-- The value of the last load, or zero before any. -/
def lastLoad (h : List TimerEvent) : Nat :=
  (h.reverse.findSome? loadedValue?).getD 0

/-- How many frames there were since the last load. -/
def framesSince (h : List TimerEvent) : Nat :=
  (h.reverse.takeWhile isFrame).length

/-- How many loads of a positive value are followed by that many frames, or more, before the next
load. -/
def expiries : List TimerEvent → Nat
  | [] => 0
  | .frame :: rest => expiries rest
  | .loaded v :: rest =>
    (if 0 < v.toNat ∧ v.toNat ≤ (rest.takeWhile isFrame).length then 1 else 0) + expiries rest

theorem lastLoad_loaded (h : List TimerEvent) (v : UInt8) :
    lastLoad (h ++ [.loaded v]) = v.toNat := by
  rw [lastLoad, List.reverse_append]
  rfl

theorem framesSince_loaded (h : List TimerEvent) (v : UInt8) :
    framesSince (h ++ [.loaded v]) = 0 := by
  rw [framesSince, List.reverse_append]
  rfl

theorem lastLoad_frame (h : List TimerEvent) : lastLoad (h ++ [.frame]) = lastLoad h := by
  rw [lastLoad, List.reverse_append]
  rfl

theorem framesSince_frame (h : List TimerEvent) :
    framesSince (h ++ [.frame]) = framesSince h + 1 := by
  rw [framesSince, List.reverse_append]
  rfl

/-- The frames before a load are those before it in the part up to the load. -/
theorem takeWhile_append_loaded (pre rest : List TimerEvent) (v : UInt8) :
    (pre ++ .loaded v :: rest).takeWhile isFrame = pre.takeWhile isFrame := by
  induction pre with
  | nil => rfl
  | cons e pre ih =>
    cases e with
    | loaded u => rfl
    | frame =>
      show TimerEvent.frame :: (pre ++ .loaded v :: rest).takeWhile isFrame = _
      rw [ih]
      rfl

/-- A history may be cut in front of a load: no countdown goes on beyond it. -/
theorem expiries_append_loaded (pre rest : List TimerEvent) (v : UInt8) :
    expiries (pre ++ .loaded v :: rest) = expiries pre + expiries (.loaded v :: rest) := by
  induction pre with
  | nil => exact (Nat.zero_add _).symm
  | cons e pre ih =>
    cases e with
    | frame => exact ih
    | loaded u =>
      rw [List.cons_append, expiries, expiries, takeWhile_append_loaded, ih, Nat.add_assoc]

theorem expiries_frames (n : Nat) : expiries (List.replicate n .frame) = 0 := by
  induction n with
  | zero => rfl
  | succ n ih => exact ih

theorem takeWhile_frames (n : Nat) :
    (List.replicate n TimerEvent.frame).takeWhile isFrame = List.replicate n .frame := by
  induction n with
  | zero => rfl
  | succ n ih =>
    show TimerEvent.frame :: (List.replicate n TimerEvent.frame).takeWhile isFrame = _
    rw [ih]
    rfl

/-- A history ends in frames, after its last load if there is one. -/
theorem frames_or_last_load (h : List TimerEvent) :
    h = List.replicate h.length .frame ∨
      ∃ pre v n, h = pre ++ .loaded v :: List.replicate n .frame := by
  induction h with
  | nil => exact .inl rfl
  | cons e h ih =>
    rcases ih with hall | ⟨pre, v, n, hlast⟩
    · cases e with
      | loaded v => exact .inr ⟨[], v, h.length, congrArg (TimerEvent.loaded v :: ·) hall⟩
      | frame => exact .inl (congrArg (TimerEvent.frame :: ·) hall)
    · exact .inr ⟨e :: pre, v, n, congrArg (e :: ·) hlast⟩

theorem lastLoad_of_frames (n : Nat) : lastLoad (List.replicate n .frame) = 0 := by
  induction n with
  | zero => rfl
  | succ n ih => rw [List.replicate_succ', lastLoad_frame, ih]

theorem last_load_eq (pre : List TimerEvent) (v : UInt8) (n : Nat) :
    lastLoad (pre ++ .loaded v :: List.replicate n .frame) = v.toNat ∧
      framesSince (pre ++ .loaded v :: List.replicate n .frame) = n := by
  induction n with
  | zero => exact ⟨lastLoad_loaded pre v, framesSince_loaded pre v⟩
  | succ n ih =>
    rw [List.replicate_succ', ← List.cons_append, ← List.append_assoc, lastLoad_frame,
      framesSince_frame]
    exact ⟨ih.1, congrArg (· + 1) ih.2⟩

/-- A load ends no countdown, not even one of its own. -/
theorem expiries_loaded (h : List TimerEvent) (v : UInt8) :
    expiries (h ++ [.loaded v]) = expiries h := by
  have hnone : ¬ (0 < v.toNat ∧ v.toNat ≤ 0) := by omega
  rw [expiries_append_loaded]
  show expiries h + ((if 0 < v.toNat ∧ v.toNat ≤ 0 then 1 else 0) + 0) = expiries h
  rw [if_neg hnone]
  rfl

/-- A frame ends the countdown of the last load if that was of as many frames. -/
theorem expiries_frame (h : List TimerEvent) :
    expiries (h ++ [.frame]) =
      expiries h + if 0 < lastLoad h ∧ framesSince h + 1 = lastLoad h then 1 else 0 := by
  rcases frames_or_last_load h with hall | ⟨pre, v, n, rfl⟩
  · rw [hall, ← List.replicate_succ', expiries_frames, expiries_frames, lastLoad_of_frames]
    simp only [Nat.lt_irrefl, false_and, ↓reduceIte]
  · obtain ⟨hload, hframes⟩ := last_load_eq pre v n
    have htail (k : Nat) : expiries (.loaded v :: List.replicate k .frame) =
        if 0 < v.toNat ∧ v.toNat ≤ k then 1 else 0 := by
      rw [expiries, takeWhile_frames, List.length_replicate, expiries_frames, Nat.add_zero]
    rw [hload, hframes, List.append_assoc, List.cons_append, ← List.replicate_succ',
      expiries_append_loaded, expiries_append_loaded, htail, htail]
    -- the countdown ran out before, runs out now, or goes on
    by_cases hpos : 0 < v.toNat
    · rcases Nat.lt_trichotomy v.toNat (n + 1) with hbefore | hnow | hafter
      · rw [if_pos ⟨hpos, by omega⟩, if_pos ⟨hpos, by omega⟩, if_neg (by omega)]
      · rw [if_pos ⟨hpos, by omega⟩, if_neg (by omega), if_pos ⟨hpos, by omega⟩]
      · rw [if_neg (by omega), if_neg (by omega), if_neg (by omega)]
    · rw [if_neg (by omega), if_neg (by omega), if_neg (by omega)]

end TimerEvent

open TimerEvent

namespace Countdown

/-- A countdown is what a history of loads and frames makes it. -/
structure Tells (c : Countdown) (h : List TimerEvent) : Prop where
  consistent : c.Consistent
  value_eq : c.value.toNat = lastLoad h - framesSince h

theorem tells_expired : expired.Tells [] where
  consistent := consistent_expired
  value_eq := rfl

theorem tells_loaded (h : List TimerEvent) (v : UInt8) : (ofValue v).Tells (h ++ [.loaded v]) where
  consistent := consistent_ofValue v
  value_eq := by
    rw [lastLoad_loaded, framesSince_loaded]
    rfl

theorem Tells.frame {c : Countdown} {h : List TimerEvent} (ht : c.Tells h) :
    c.tick.2.Tells (h ++ [.frame]) where
  consistent := consistent_tick ht.consistent
  value_eq := by
    rw [tick_value ht.consistent, ht.value_eq, lastLoad_frame, framesSince_frame, Nat.sub_sub]

theorem Tells.tick_iff {c : Countdown} {h : List TimerEvent} (ht : c.Tells h) :
    c.tick.1 = true ↔ 0 < lastLoad h ∧ framesSince h + 1 = lastLoad h := by
  rw [Countdown.tick_iff ht.consistent, ht.value_eq]
  omega

end Countdown

/-- One of the two timers. -/
inductive Timer where
  | delay
  | sound
  deriving DecidableEq, Repr

namespace Timer

/-- The countdown of a timer. -/
def reading (p : Processor) : Timer → Countdown
  | .delay => p.delay
  | .sound => p.sound

/-- The register whose value an instruction starts a timer from. -/
def source? : Timer → Instruction → Option UInt8
  | .delay, .setDelay x => some x
  | .sound, .setSound x => some x
  | _, _ => none

end Timer

namespace Machine

variable {κ ρ : Type}

theorem reading_machineAfter [Keypad κ] [RandomSource ρ] (m : Machine κ ρ) (t : Timer)
    (i : Instruction) :
    t.reading (m.machineAfter i).cpu =
      match t.source? i with
      | some x => .ofValue (m.cpu.v.get x)
      | none => t.reading m.cpu := by
  cases t <;> cases i <;> rfl

variable [Keypad κ] [RandomSource ρ]

/-- What an action does to a timer. -/
def timerEvents (t : Timer) (m : Machine κ ρ) : Action → List TimerEvent
  | .load _ => []
  | .tick => [.frame]
  | .step =>
    match (Instruction.ofWord? m.nextWord).bind t.source? with
    | some x => [.loaded (m.cpu.v.get x)]
    | none => []

variable {m : Machine κ ρ} {h : List TimerEvent} {t : Timer}

theorem step_tells (ht : (t.reading m.cpu).Tells h) :
    (t.reading m.step.machine.cpu).Tells (h ++ timerEvents t m .step) := by
  have hfetched : t.reading m.fetched.cpu = t.reading m.cpu := by cases t <;> rfl
  cases hw : Instruction.ofWord? m.nextWord with
  | none =>
    have hmachine : t.reading m.step.machine.cpu = t.reading m.cpu := by
      rw [step_of_unknown hw]
      exact hfetched
    rw [hmachine, timerEvents, hw, Option.bind_none, List.append_nil]
    exact ht
  | some i =>
    rw [step_of_known hw, reading_machineAfter, timerEvents, hw, Option.bind_some, hfetched]
    cases t.source? i with
    | none =>
      rw [List.append_nil]
      exact ht
    | some x => exact Countdown.tells_loaded h _

/-- What a timer reads after an action is told by the history with what the action did to it. -/
theorem act_tells (ht : (t.reading m.cpu).Tells h) (a : Action) :
    (t.reading (m.act a).machine.cpu).Tells (h ++ timerEvents t m a) := by
  cases a with
  | load source =>
    have hcpu : t.reading (m.act (.load source)).machine.cpu = t.reading m.cpu := by
      show t.reading (m.loadFrom source).machine.cpu = _
      rw [loadFrom_cpu]
      cases t <;> rfl
    rw [hcpu, timerEvents, List.append_nil]
    exact ht
  | step => exact step_tells ht
  | tick =>
    have hcpu : t.reading (m.act .tick).machine.cpu = (t.reading m.cpu).tick.2 := by
      show t.reading m.tick.machine.cpu = _
      rw [tick_cpu]
      cases t <;> rfl
    rw [hcpu]
    exact ht.frame

/-- The run lemma. The history so far is carried along, since a load in it still counts. -/
theorem after_tells (ht : (t.reading m.cpu).Tells h) (session : List Action) :
    (t.reading (m.after session).cpu).Tells (h ++ history (timerEvents t) m session) := by
  induction session generalizing m h with
  | nil =>
    rw [history, List.append_nil]
    exact ht
  | cons a rest ih =>
    rw [history, ← List.append_assoc]
    exact ih (act_tells ht a)

/-- Frames alone play the sound, and only the one that the history tells. -/
theorem act_beeps (ht : m.cpu.sound.Tells h) (a : Action) :
    (m.act a).machine.beeps =
      m.beeps + if a = .tick ∧ 0 < lastLoad h ∧ framesSince h + 1 = lastLoad h then 1 else 0 := by
  cases a with
  | load source =>
    show (m.loadFrom source).machine.beeps = m.beeps
    rw [loadFrom_machine]
  | step =>
    show m.step.machine.beeps = m.beeps
    cases hw : Instruction.ofWord? m.nextWord with
    | none =>
      rw [step_of_unknown hw]
      rfl
    | some i =>
      rw [step_of_known hw]
      rfl
  | tick =>
    show m.tick.machine.beeps = _
    rw [tick_machine]
    simp only [ht.tick_iff, true_and]

/-- The beeps so far are the countdowns that ran out so far. -/
theorem act_expiries (ht : m.cpu.sound.Tells h) (hb : m.beeps = expiries h) (a : Action) :
    (m.act a).machine.beeps = expiries (h ++ timerEvents .sound m a) := by
  rw [act_beeps ht, hb]
  cases a with
  | load source =>
    rw [timerEvents, List.append_nil, if_neg (by simp)]
    rfl
  | step =>
    rw [if_neg (by simp), timerEvents]
    split
    · exact (expiries_loaded h _).symm
    · rw [List.append_nil]
      rfl
  | tick => simp only [timerEvents, expiries_frame, true_and]

theorem after_expiries (ht : m.cpu.sound.Tells h) (hb : m.beeps = expiries h)
    (session : List Action) :
    (m.after session).beeps = expiries (h ++ history (timerEvents .sound) m session) := by
  induction session generalizing m h with
  | nil =>
    rw [history, List.append_nil]
    exact hb
  | cons a rest ih =>
    rw [history, ← List.append_assoc]
    exact ih (act_tells (t := .sound) ht a) (act_expiries ht hb a)

/-- **Timers and beeps are told by the history of their loads and frames.** Each timer reads the
value of its last load less the frames since, and nothing below zero. An action plays the sound,
once, exactly if it is the frame on which the last load of the sound timer has had as many frames as
its positive value says. So the sound has been played as often as loads of a positive value were
followed by that many frames before the next load. -/
theorem timers_and_beeps (keys : κ) (random : ρ) (session : List Action) :
    let m := (fresh keys random).after session
    let events := fun t => history (timerEvents t) (fresh keys random) session
    (∀ t : Timer, (t.reading m.cpu).value.toNat = lastLoad (events t) - framesSince (events t)) ∧
    (∀ a, (m.act a).machine.beeps = m.beeps +
      if a = .tick ∧ 0 < lastLoad (events .sound) ∧
        framesSince (events .sound) + 1 = lastLoad (events .sound) then 1 else 0) ∧
    m.beeps = expiries (events .sound) := by
  intro m events
  have htells (t : Timer) : (t.reading m.cpu).Tells (events t) :=
    after_tells (h := []) (by cases t <;> exact Countdown.tells_expired) session
  refine ⟨fun t => (htells t).value_eq, act_beeps (htells .sound), ?_⟩
  exact after_expiries (h := []) Countdown.tells_expired rfl session

/-- The sound timer is started from three and runs out on the third of four frames. -/
example :
    ((fresh (⟨[], [], 0, none⟩ : ScriptedKeys) (⟨[], 0⟩ : ScriptedRandom)).after
      [.load (.ofBytes [0x60, 0x03, 0xf0, 0x18]), .step, .step, .tick, .tick, .tick, .tick]).beeps =
      1 := by
  decide +kernel

end Machine

end Chip8
