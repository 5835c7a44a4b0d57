import Chip8.Options.Parse
import Chip8.Proofs.Pacing.Schedule

/-!
# Step periods

The time between steps is a second over the speed, in whole nanoseconds. Up to one step a nanosecond
it is never zero, and every step that counts puts the next one later. A higher speed is accepted too
and leaves no time between steps at all: their deadline stands still unless a run falls more than a
frame behind (`step_deadline_advances_up_to_a_step_a_nanosecond`).
-/

namespace Chip8

namespace Options

/-- Steps a second, where none counts as one. -/
def rate (o : Options) : Nat :=
  max o.speed.toNat 1

theorem rate_pos (o : Options) : 0 < o.rate := by
  unfold rate
  omega

theorem stepPeriod_pos_iff (o : Options) : 0 < o.stepPeriod ↔ o.rate ≤ second :=
  Nat.div_pos_iff.trans (and_iff_right o.rate_pos)

theorem stepPeriod_anti {o faster : Options} (h : o.speed ≤ faster.speed) :
    faster.stepPeriod ≤ o.stepPeriod := by
  have hspeed := UInt32.le_iff_toNat_le.mp h
  have hrate : o.rate ≤ faster.rate := by
    unfold rate
    omega
  exact Nat.div_le_div_left hrate o.rate_pos

end Options

theorem le_nextDeadline (deadline period now slack : Nat) :
    deadline + period ≤ nextDeadline deadline period now slack := by
  unfold nextDeadline
  split <;> omega

/-- A deadline is before the one that follows it if there is a period, or if it was met so late that
the next one counts from then. -/
theorem lt_nextDeadline_iff (deadline period now slack : Nat) :
    deadline < nextDeadline deadline period now slack ↔ 0 < period ∨ deadline + slack < now := by
  unfold nextDeadline
  split <;> omega

theorem nextDeadline_punctual {deadline now slack : Nat} (h : now ≤ deadline + slack)
    (period : Nat) : nextDeadline deadline period now slack = deadline + period := by
  unfold nextDeadline
  rw [if_neg (by omega)]

namespace Run

variable {κ ρ σ : Type} {r before passed : Run κ ρ σ} {pace : Pace} {now begun : Nat}

/-- A clock on which no sleep ends more than `slack` late. -/
def Clock.Punctual (clock : Clock) (slack : Nat) : Prop :=
  ∀ number wake, clock number wake ≤ wake + slack

/-- What a part of a pass does to the steps: nothing, or it counts one that was due and moves the
deadline on. -/
inductive Counts (r : Run κ ρ σ) (pace : Pace) (now : Nat) (passed : Run κ ρ σ) : Prop where
  | no_step (steps : passed.tally.steps = r.tally.steps) (kept : passed.nextStep = r.nextStep)
  | step (due : r.nextStep ≤ now) (steps : passed.tally.steps = r.tally.steps + 1)
      (moved : passed.nextStep = nextDeadline r.nextStep pace.stepPeriod now pace.framePeriod)

/-- What comes before a step in a pass takes no part in the counting. -/
theorem Counts.of_same (steps : before.tally.steps = r.tally.steps)
    (kept : before.nextStep = r.nextStep) (h : before.Counts pace now passed) :
    r.Counts pace now passed := by
  cases h with
  | no_step hsteps hkept => exact .no_step (hsteps.trans steps) (hkept.trans kept)
  | step hdue hsteps hmoved =>
    rw [kept] at hdue hmoved
    rw [steps] at hsteps
    exact .step hdue hsteps hmoved

/-- A step that counts moves the deadline if there is a period, or if the step was late. -/
theorem Counts.advances_iff (h : r.Counts pace now passed)
    (hcounted : passed.tally.steps ≠ r.tally.steps) :
    r.nextStep < passed.nextStep ↔ 0 < pace.stepPeriod ∨ r.nextStep + pace.framePeriod < now := by
  cases h with
  | no_step hsteps _ => exact absurd hsteps hcounted
  | step _ _ hmoved =>
    rw [hmoved]
    exact lt_nextDeadline_iff r.nextStep pace.stepPeriod now pace.framePeriod

/-- Every step that a run has counted has moved its deadline by a period at least. -/
def Ahead (r : Run κ ρ σ) (pace : Pace) (begun : Nat) : Prop :=
  begun + r.tally.steps * pace.stepPeriod ≤ r.nextStep

/-- Every step that a run has counted has moved its deadline by a period. -/
def Punctual (r : Run κ ρ σ) (pace : Pace) (begun : Nat) : Prop :=
  r.nextStep = begun + r.tally.steps * pace.stepPeriod

theorem Counts.ahead (h : r.Counts pace now passed) (hr : r.Ahead pace begun) :
    passed.Ahead pace begun := by
  unfold Ahead at hr ⊢
  cases h with
  | no_step hsteps hkept => rwa [hsteps, hkept]
  | step _ hsteps hmoved =>
    have hnext := le_nextDeadline r.nextStep pace.stepPeriod now pace.framePeriod
    rw [hsteps, hmoved, Nat.add_one_mul]
    omega

theorem Counts.punctual (h : r.Counts pace now passed)
    (hnow : now ≤ r.nextStep + pace.framePeriod) (hr : r.Punctual pace begun) :
    passed.Punctual pace begun := by
  unfold Punctual at hr ⊢
  cases h with
  | no_step hsteps hkept => rw [hsteps, hkept, hr]
  | step _ hsteps hmoved =>
    rw [hsteps, hmoved, nextDeadline_punctual hnow, hr, Nat.add_one_mul, Nat.add_assoc]

variable [Keypad κ] [RandomSource ρ] [Screen σ]

/-- A frame is no step. -/
theorem frameIfDue_step (r : Run κ ρ σ) (pace : Pace) (now : Nat) :
    (r.frameIfDue pace now).2.tally.steps = r.tally.steps ∧
      (r.frameIfDue pace now).2.nextStep = r.nextStep := by
  by_cases hdue : r.nextFrame ≤ now
  · rw [frameIfDue_of_due hdue]
    exact ⟨rfl, rfl⟩
  · have hearly : r.frameIfDue pace now = (none, r) := if_neg hdue
    rw [hearly]
    exact ⟨rfl, rfl⟩

theorem stepIfDue_counts (r : Run κ ρ σ) (pace : Pace) (now : Nat) :
    r.Counts pace now (r.stepIfDue pace now).2 := by
  by_cases hdue : r.nextStep ≤ now
  · rw [stepIfDue_of_due hdue]
    simp only [Console.perform]
    by_cases hgoes : r.console.machine.step.outcome = .proceeds
    · rw [hgoes]
      exact .step hdue rfl rfl
    · have hnone : [Done.stepped r.console.machine.step.outcome].count (.stepped .proceeds) = 0 :=
        List.count_singleton.trans (if_neg (by simpa using hgoes))
      exact .no_step (congrArg (r.tally.steps + ·) hnone) (if_neg hgoes)
  · have hearly : r.stepIfDue pace now = (none, r) := if_neg hdue
    rw [hearly]
    exact .no_step rfl rfl

/-- The step lemma: a pass counts at most one step, and moves the deadline exactly if it does. -/
theorem pass_counts (r : Run κ ρ σ) (pace : Pace) (now : Nat) :
    r.Counts pace now (r.pass pace now).2 := by
  rcases hask : r.askQuit with ⟨_ | _, asked⟩
  · obtain rfl : r.askQuit.2 = asked := congrArg Prod.snd hask
    obtain ⟨hsteps, hkept⟩ := r.askQuit.2.frameIfDue_step pace now
    rcases hf : r.askQuit.2.frameIfDue pace now with ⟨_ | ending, framed⟩
    · rw [hf] at hsteps hkept
      rw [pass_of_framed hask hf]
      exact (framed.stepIfDue_counts pace now).of_same hsteps hkept
    · rw [hf] at hsteps hkept
      rw [pass_of_ended hask hf]
      exact .no_step hsteps hkept
  · obtain rfl : r.askQuit.2 = asked := congrArg Prod.snd hask
    rw [pass_of_quit hask]
    exact .no_step rfl rfl

/-- The run lemma: what every pass keeps, a run keeps. -/
theorem goOn_keeps {P : Run κ ρ σ → Prop} {clock : Clock}
    (hpass : ∀ r number, P r → P (r.pass pace (clock number r.wake)).2) (h : P r)
    (number passes : Nat) : P (r.goOn pace clock number passes).2 := by
  induction passes generalizing r number with
  | zero => exact h
  | succ passes ih =>
    have hpassed := hpass r number h
    unfold goOn
    rcases hp : r.pass pace (clock number r.wake) with ⟨_ | ending, passed⟩
    · rw [hp] at hpassed
      exact ih hpassed (number + 1)
    · rw [hp] at hpassed
      exact hpassed

/-- **The step deadline advances with every step at speeds up to a step a nanosecond.** For just
these the step period is positive, and a second over the rate but no less than a nanosecond; beyond
them it is zero. A higher speed never makes it longer. A pass counts at most one step, and that one
moves the deadline on just if there is a period or it was more than a frame late. In a whole run each
step has moved the deadline by a period at least, and by just a period if the clock was never more
than a frame late: so without a period the deadline is where it began. -/
theorem step_deadline_advances_up_to_a_step_a_nanosecond (o : Options) (console : Console κ ρ σ)
    (clock : Clock) (begun passes : Nat) :
    let result := ((start console o.pace begun).goOn o.pace clock 0 passes).2
    (0 < o.stepPeriod ↔ o.rate ≤ Options.second) ∧
    (o.stepPeriod = max 1 (Options.second / o.rate) ↔ o.rate ≤ Options.second) ∧
    (∀ faster : Options, o.speed ≤ faster.speed → faster.stepPeriod ≤ o.stepPeriod) ∧
    (∀ (r : Run κ ρ σ) (now : Nat),
      let passed := (r.pass o.pace now).2
      passed.tally.steps ≠ r.tally.steps →
        passed.tally.steps = r.tally.steps + 1 ∧
        (r.nextStep < passed.nextStep ↔
          o.rate ≤ Options.second ∨ r.nextStep + o.framePeriod < now)) ∧
    begun + result.tally.steps * o.stepPeriod ≤ result.nextStep ∧
    (clock.Punctual o.framePeriod →
      result.nextStep = begun + result.tally.steps * o.stepPeriod) := by
  intro result
  have hpositive := o.stepPeriod_pos_iff
  refine ⟨hpositive, ?_, fun faster => Options.stepPeriod_anti, fun r now => ?_, ?_,
    fun hclock => ?_⟩
  · have hperiod : Options.second / o.rate = o.stepPeriod := rfl
    rw [hperiod, ← hpositive]
    omega
  · intro passed hcounted
    have hpass := r.pass_counts o.pace now
    refine ⟨?_, (hpass.advances_iff hcounted).trans (or_congr_left hpositive)⟩
    cases hpass with
    | no_step hsteps _ => exact absurd hsteps hcounted
    | step _ hsteps _ => exact hsteps
  · have hstart : (start console o.pace begun).Ahead o.pace begun := by
      show begun + 0 * o.stepPeriod ≤ begun
      omega
    exact goOn_keeps (fun r number => (r.pass_counts o.pace _).ahead) hstart 0 passes
  · have hstart : (start console o.pace begun).Punctual o.pace begun := by
      show begun = begun + 0 * o.stepPeriod
      omega
    refine goOn_keeps (fun r number => (r.pass_counts o.pace _).punctual ?_) hstart 0 passes
    have hwake : r.wake ≤ r.nextStep := Nat.min_le_left _ _
    exact Nat.le_trans (hclock number r.wake) (Nat.add_le_add_right hwake _)

/-- Twenty passes at 500 steps a second, on a clock that is never late: eighteen steps and two frames,
and a step deadline eighteen periods on. -/
theorem step_deadline_advances_on_ideal_clock :
    let o : Options := { rom := "x", speed := 500 }
    let keys : ScriptedKeys := ⟨[], [], 0, none⟩
    let console : Console ScriptedKeys ScriptedRandom CountingScreen :=
      ⟨.fresh keys ⟨[], 0⟩, ⟨0, none⟩⟩
    let result := ((start console o.pace 7).goOn o.pace idealClock 0 20).2
    idealClock.Punctual o.framePeriod ∧ o.stepPeriod = 2000000 ∧
      result.tally = ⟨18, 2⟩ ∧ result.nextStep = 7 + 18 * 2000000 := by
  intro o keys console result
  have hclock : idealClock.Punctual o.framePeriod := fun _ wake => Nat.le_add_right wake _
  have hperiod : o.stepPeriod = 2000000 := by decide
  have htally : result.tally = ⟨18, 2⟩ := by decide +kernel
  obtain ⟨-, -, -, -, -, hpunctual⟩ :=
    step_deadline_advances_up_to_a_step_a_nanosecond o console idealClock 7 20
  have hnext := hpunctual hclock
  rw [htally, hperiod] at hnext
  exact ⟨hclock, hperiod, htally, hnext⟩

/-- The command line may ask for a billion and one steps a second. They get no time, and a step that
is made at once leaves its deadline where it was. -/
theorem step_deadline_stands_at_a_billion_and_one_steps_a_second :
    ∃ o : Options, Options.parse ["--speed=1000000001".toList, "x".toList] = .ok o ∧
      o.stepPeriod = 0 ∧
      let keys : ScriptedKeys := ⟨[], [], 0, none⟩
      let console : Console ScriptedKeys ScriptedRandom CountingScreen :=
        ⟨.fresh keys ⟨[], 0⟩, ⟨0, none⟩⟩
      let r := start console o.pace 7
      let passed := (r.pass o.pace 7).2
      passed.tally.steps = r.tally.steps + 1 ∧ passed.nextStep = r.nextStep := by
  refine ⟨{ rom := "x", speed := 1000000001 }, ?_, ?_, ?_⟩
  · rfl
  · decide
  · decide +kernel

end Run

end Chip8
