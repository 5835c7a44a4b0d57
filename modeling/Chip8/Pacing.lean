import Chip8.Machine.Session
import Chip8.Options.Basic
import Chip8.Screen.Basic

/-!
# Pacing

Running a console against a clock. Steps and frames each have a period and a deadline; the run
looks at the clock once a pass, lets a frame pass if its deadline is due, then makes a step if that
one's is. A deadline moves on by its period, but a run that has fallen more than a frame behind does
not try to catch up. Times are nanoseconds.

A pass is written once, for any host that tells the time and may do something of its own in between
(`passOn`). `pass` is the one on a host that does nothing else.
-/

namespace Chip8

/-- How often steps and frames are due. -/
structure Pace where
  stepPeriod : Nat
  framePeriod : Nat
  deriving DecidableEq, Repr

/-- The pace that a user asks for. -/
def Options.pace (o : Options) : Pace where
  stepPeriod := o.stepPeriod
  framePeriod := o.framePeriod

structure Tally where
  /-- Steps that went on. -/
  steps : Nat
  /-- Frames that passed and were shown. -/
  frames : Nat
  deriving DecidableEq, Repr

inductive Ending where
  | stopped
  | failed (fault : Fault)
  deriving DecidableEq, Repr

structure Run (κ ρ σ : Type) where
  console : Console κ ρ σ
  nextStep : Nat
  nextFrame : Nat
  tally : Tally

/-- The deadline after one that was met at `now`. It is one period on, unless that is more than
`slack` ago: then it counts from now. -/
def nextDeadline (deadline period now slack : Nat) : Nat :=
  if now > deadline + period + slack then now + period else deadline + period

namespace Run

variable {κ ρ σ : Type}

/-- A run that starts at a time: a step is due at once, a frame after its period. -/
def start (console : Console κ ρ σ) (pace : Pace) (now : Nat) : Run κ ρ σ where
  console := console
  nextStep := now
  nextFrame := now + pace.framePeriod
  tally := ⟨0, 0⟩

def wake (r : Run κ ρ σ) : Nat :=
  min r.nextStep r.nextFrame

/-- Where a run takes place. -/
structure Host (m : Type → Type) (κ ρ σ : Type) where
  /-- Looks at the clock. -/
  now : m Nat
  /-- Shows what a frame has changed. -/
  present (before after : Run κ ρ σ) : m Unit
  /-- Gets ready for a step, should one be due. -/
  ready (r : Run κ ρ σ) (now : Nat) : m (Run κ ρ σ)

/-- A host on which nothing happens, at a given time. -/
def Host.still (now : Nat) : Host Id κ ρ σ where
  now := pure now
  present _ _ := pure ()
  ready r _ := pure r

variable [Keypad κ] [RandomSource ρ] [Screen σ]

def askQuit (r : Run κ ρ σ) : Bool × Run κ ρ σ :=
  let m := r.console.machine
  let reading := Keypad.quitRequested m.keys
  (reading.answer, { r with console := { r.console with machine := { m with keys := reading.keys } } })

/-- Lets a frame pass if it is due: the timers count down and the screen is refreshed. -/
def frameIfDue (r : Run κ ρ σ) (pace : Pace) (now : Nat) : Option Ending × Run κ ρ σ :=
  if now ≥ r.nextFrame then
    match Console.refresh { r.console with machine := r.console.machine.tick.machine } with
    | (some fault, console) => (some (.failed fault), { r with console := console })
    | (none, console) =>
      (none,
        { r with
          console := console
          nextFrame := nextDeadline r.nextFrame pace.framePeriod now pace.framePeriod
          tally := { r.tally with frames := r.tally.frames + 1 } })
  else
    (none, r)

def stepIfDue (r : Run κ ρ σ) (pace : Pace) (now : Nat) : Option Ending × Run κ ρ σ :=
  if now ≥ r.nextStep then
    let turn := r.console.machine.step
    let stepped := { r with console := { r.console with machine := turn.machine } }
    match turn.outcome with
    | .faults fault => (some (.failed fault), stepped)
    | .quits => (some .stopped, stepped)
    | .proceeds =>
      (none,
        { stepped with
          nextStep := nextDeadline r.nextStep pace.stepPeriod now pace.framePeriod
          tally := { r.tally with steps := r.tally.steps + 1 } })
  else
    (none, r)

/-- One pass: ask for a quit, look at the clock, then a frame, then a step, each if it is due. -/
def passOn {m : Type → Type} [Monad m] (host : Host m κ ρ σ) (r : Run κ ρ σ) (pace : Pace) :
    m (Option Ending × Run κ ρ σ) := do
  match r.askQuit with
  | (true, asked) => return (some .stopped, asked)
  | (false, asked) =>
    let now ← host.now
    match asked.frameIfDue pace now with
    | (some ending, framed) => return (some ending, framed)
    | (none, framed) =>
      host.present asked framed
      let ready ← host.ready framed now
      return ready.stepIfDue pace now

/-- One pass at the time `now`, with nothing in between. -/
def pass (r : Run κ ρ σ) (pace : Pace) (now : Nat) : Option Ending × Run κ ρ σ :=
  Id.run (r.passOn (.still now) pace)

theorem pass_eq (r : Run κ ρ σ) (pace : Pace) (now : Nat) :
    r.pass pace now =
      match r.askQuit with
      | (true, asked) => (some .stopped, asked)
      | (false, asked) =>
        match asked.frameIfDue pace now with
        | (some ending, framed) => (some ending, framed)
        | (none, framed) => framed.stepIfDue pace now := by
  rcases hask : r.askQuit with ⟨_ | _, asked⟩
  · rcases hf : asked.frameIfDue pace now with ⟨_ | ending, framed⟩
    all_goals simp only [pass, passOn, Host.still, hask, hf, pure_bind, Id.run_pure]
  · simp only [pass, passOn, hask, Id.run_pure]

/-- A clock: what it shows at a pass, given the time until which the run may sleep before it. -/
abbrev Clock : Type := Nat → Nat → Nat

/-- A clock whose sleeps end exactly when they should, and on which nothing takes time. -/
def idealClock : Clock :=
  fun _ wake => wake

/-- At most `passes` passes, the first of them numbered `number`. Without an ending the run is
not over. -/
def goOn (r : Run κ ρ σ) (pace : Pace) (clock : Clock) (number : Nat) :
    Nat → Option Ending × Run κ ρ σ
  | 0 => (none, r)
  | passes + 1 =>
    match r.pass pace (clock number r.wake) with
    | (some ending, ended) => (some ending, ended)
    | (none, passed) => passed.goOn pace clock (number + 1) passes

end Run

end Chip8
