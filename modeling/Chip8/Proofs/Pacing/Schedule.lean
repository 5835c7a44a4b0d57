import Chip8.Keypad.Scripted
import Chip8.Proofs.Pacing.Duties

/-!
# A run keeps to its schedule

When a period is zero its deadline is due in every pass, and when it is longer than the run its
deadline comes once or never: `OnTime` says which deadlines those are. For such a pace the clock
drops out, and a run comes to the duties of its schedule.
-/

namespace Chip8

/-- A tally with what was carried out counted in. -/
def Tally.plus (t : Tally) (dones : List Done) : Tally where
  steps := t.steps + dones.count (.stepped .proceeds)
  frames := t.frames + dones.count (.refreshed none)

theorem Tally.plus_append (t : Tally) (first second : List Done) :
    t.plus (first ++ second) = (t.plus first).plus second := by
  simp only [Tally.plus, List.count_append, Nat.add_assoc]

namespace Run

variable {κ ρ σ : Type} {r : Run κ ρ σ} {pace : Pace} {now begun last : Nat} {first : Bool}

/-- The deadlines of a run that began at `begun` and has last looked at the clock at `last`. A zero
period is due again at once; a deadline one long period after the beginning is never reached. -/
structure OnTime (r : Run κ ρ σ) (pace : Pace) (begun last : Nat) (first : Bool) : Prop where
  begun_le : begun ≤ last
  frame_zero : pace.framePeriod = 0 → r.nextFrame ≤ last
  frame_long : pace.framePeriod ≠ 0 → r.nextFrame = begun + pace.framePeriod
  step_first : first = true → r.nextStep = begun
  step_zero : pace.stepPeriod = 0 → r.nextStep ≤ last
  step_long : pace.stepPeriod ≠ 0 → first = false → r.nextStep = begun + pace.stepPeriod

theorem onTime_start (console : Console κ ρ σ) (pace : Pace) (begun : Nat) :
    (start console pace begun).OnTime pace begun begun true where
  begun_le := Nat.le_refl begun
  frame_zero hzero := by
    show begun + pace.framePeriod ≤ begun
    omega
  frame_long _ := rfl
  step_first _ := rfl
  step_zero _ := Nat.le_refl begun
  step_long _ hfirst := by cases hfirst

theorem OnTime.frame_due (h : r.OnTime pace begun last first) (hnow : last ≤ now)
    (hlong : pace.framePeriod = 0 ∨ now < begun + pace.framePeriod) :
    r.nextFrame ≤ now ↔ pace.framePeriod = 0 := by
  constructor
  · intro hdue
    rcases hlong with hzero | hlater
    · exact hzero
    · by_cases hzero : pace.framePeriod = 0
      · exact hzero
      · have hnext := h.frame_long hzero
        omega
  · intro hzero
    exact Nat.le_trans (h.frame_zero hzero) hnow

theorem OnTime.step_due (h : r.OnTime pace begun last first) (hnow : last ≤ now)
    (hlong : pace.stepPeriod = 0 ∨ now < begun + pace.stepPeriod) :
    r.nextStep ≤ now ↔ pace.stepPeriod = 0 ∨ first = true := by
  constructor
  · intro hdue
    rcases hlong with hzero | hlater
    · exact .inl hzero
    · cases first with
      | true => exact .inr rfl
      | false =>
        by_cases hzero : pace.stepPeriod = 0
        · exact .inl hzero
        · have hnext := h.step_long hzero rfl
          omega
  · rintro (hzero | hfirst)
    · exact Nat.le_trans (h.step_zero hzero) hnow
    · have hbegun := h.begun_le
      have hnext := h.step_first hfirst
      omega

/-- A zero period puts a deadline that was met at no time after now. -/
theorem nextDeadline_zero {deadline : Nat} (h : deadline ≤ now) (slack : Nat) :
    nextDeadline deadline 0 now slack ≤ now := by
  unfold nextDeadline
  split <;> omega

theorem nextDeadline_early {deadline period : Nat} (h : now < deadline + period) (slack : Nat) :
    nextDeadline deadline period now slack = deadline + period := by
  unfold nextDeadline
  rw [if_neg (by omega)]

variable [Keypad κ]

theorem askQuit_deadlines {asked : Run κ ρ σ} {quit : Bool} (h : r.askQuit = (quit, asked)) :
    asked.nextFrame = r.nextFrame ∧ asked.nextStep = r.nextStep := by
  obtain rfl : r.askQuit.2 = asked := congrArg Prod.snd h
  exact ⟨rfl, rfl⟩

variable [RandomSource ρ] [Screen σ]

/-- A part of a run comes to these duties. -/
structure Does (r : Run κ ρ σ) (duties : List Duty) (result : Option Ending × Run κ ρ σ) :
    Prop where
  ending : result.1 = Done.endingOf (r.console.performAll duties).1
  console : result.2.console = (r.console.performAll duties).2
  tally : result.2.tally = r.tally.plus (r.console.performAll duties).1

theorem does_nothing (r : Run κ ρ σ) : r.Does [] (none, r) :=
  ⟨rfl, rfl, rfl⟩

theorem Does.of_ended {r mid : Run κ ρ σ} {first : List Duty} {ending : Ending}
    (h : r.Does first (some ending, mid)) (second : List Duty) :
    r.Does (first ++ second) (some ending, mid) := by
  have hsame := Console.performAll_append_of_ended h.ending.symm second
  exact ⟨by rw [hsame]; exact h.ending, by rw [hsame]; exact h.console,
    by rw [hsame]; exact h.tally⟩

theorem Does.append {r mid : Run κ ρ σ} {first second : List Duty}
    {result : Option Ending × Run κ ρ σ} (h₁ : r.Does first (none, mid))
    (h₂ : mid.Does second result) : r.Does (first ++ second) result := by
  have hconsole : mid.console = (r.console.performAll first).2 := h₁.console
  have htally : mid.tally = r.tally.plus (r.console.performAll first).1 := h₁.tally
  have hjoined := Console.performAll_append_of_going h₁.ending.symm second
  rw [← hconsole] at hjoined
  refine ⟨?_, ?_, ?_⟩
  · rw [hjoined, Done.endingOf_append_of_going h₁.ending.symm]
    exact h₂.ending
  · rw [hjoined]
    exact h₂.console
  · rw [hjoined, Tally.plus_append, ← htally]
    exact h₂.tally

theorem does_one {duty : Duty} {result : Option Ending × Run κ ρ σ}
    (hending : result.1 = (r.console.perform duty).1.ending?)
    (hconsole : result.2.console = (r.console.perform duty).2)
    (htally : result.2.tally = r.tally.plus [(r.console.perform duty).1]) :
    r.Does [duty] result := by
  have hall := r.console.performAll_one duty
  refine ⟨?_, by rw [hall]; exact hconsole, by rw [hall]; exact htally⟩
  rw [hall, Done.endingOf_one]
  exact hending

theorem askQuit_does {asked : Run κ ρ σ} {quit : Bool} (h : r.askQuit = (quit, asked)) :
    r.Does [.askQuit] ((Done.asked quit).ending?, asked) := by
  have hanswer : (Keypad.quitRequested r.console.machine.keys).answer = quit :=
    congrArg Prod.fst h
  obtain rfl : r.askQuit.2 = asked := congrArg Prod.snd h
  have hdone : (r.console.perform .askQuit).1 = .asked quit := congrArg Done.asked hanswer
  exact does_one (by rw [hdone]) rfl rfl

/-- A frame that is due: a tick, a refresh, and a new deadline unless the refresh failed. -/
theorem frameIfDue_of_due (h : r.nextFrame ≤ now) (pace : Pace) :
    let ticked : Console κ ρ σ := (r.console.perform .tick).2
    r.frameIfDue pace now =
      ((ticked.perform .refresh).1.ending?,
        { console := (ticked.perform .refresh).2
          nextStep := r.nextStep
          nextFrame :=
            if ticked.refresh.1 = none then
              nextDeadline r.nextFrame pace.framePeriod now pace.framePeriod
            else r.nextFrame
          tally := r.tally.plus [(ticked.perform .refresh).1] }) := by
  intro ticked
  have hdue : now ≥ r.nextFrame := h
  have hticked : { r.console with machine := r.console.machine.tick.machine } = ticked := rfl
  simp only [frameIfDue, hdue, ↓reduceIte, hticked, Console.perform]
  rcases ticked.refresh with ⟨_ | fault, shown⟩ <;> rfl

/-- A step that is due, and its new deadline unless it ended the run. -/
theorem stepIfDue_of_due (h : r.nextStep ≤ now) (pace : Pace) :
    r.stepIfDue pace now =
      ((r.console.perform .step).1.ending?,
        { console := (r.console.perform .step).2
          nextStep :=
            if r.console.machine.step.outcome = .proceeds then
              nextDeadline r.nextStep pace.stepPeriod now pace.framePeriod
            else r.nextStep
          nextFrame := r.nextFrame
          tally := r.tally.plus [(r.console.perform .step).1] }) := by
  have hdue : now ≥ r.nextStep := h
  simp only [stepIfDue, hdue, ↓reduceIte, Console.perform]
  rcases r.console.machine.step with ⟨_ | _ | fault, machine, log⟩ <;> rfl

theorem frameIfDue_does (hdue : r.nextFrame ≤ now ↔ pace.framePeriod = 0) :
    r.Does pace.frameDuties (r.frameIfDue pace now) := by
  unfold Pace.frameDuties
  by_cases hzero : pace.framePeriod = 0
  · rw [if_pos hzero, frameIfDue_of_due (hdue.mpr hzero)]
    let ticked : Run κ ρ σ := { r with console := (r.console.perform .tick).2 }
    have htick : r.Does [.tick] (none, ticked) := does_one rfl rfl rfl
    show r.Does ([.tick] ++ [.refresh]) _
    refine htick.append ?_
    exact does_one rfl rfl rfl
  · have hearly : r.frameIfDue pace now = (none, r) := if_neg (mt hdue.mp hzero)
    rw [if_neg hzero, hearly]
    exact r.does_nothing

theorem stepIfDue_does {first : Bool}
    (hdue : r.nextStep ≤ now ↔ pace.stepPeriod = 0 ∨ first = true) :
    r.Does (pace.stepDuties first) (r.stepIfDue pace now) := by
  unfold Pace.stepDuties
  by_cases hstep : pace.stepPeriod = 0 ∨ first = true
  · rw [if_pos hstep, stepIfDue_of_due (hdue.mpr hstep)]
    exact does_one rfl rfl rfl
  · have hearly : r.stepIfDue pace now = (none, r) := if_neg (mt hdue.mp hstep)
    rw [if_neg hstep, hearly]
    exact r.does_nothing

/-- The deadlines after a frame that was due or not, in a run that goes on. -/
theorem frameIfDue_deadlines {framed : Run κ ρ σ} (h : r.frameIfDue pace now = (none, framed)) :
    framed.nextFrame =
        (if r.nextFrame ≤ now then nextDeadline r.nextFrame pace.framePeriod now pace.framePeriod
        else r.nextFrame) ∧
      framed.nextStep = r.nextStep := by
  by_cases hdue : r.nextFrame ≤ now
  · rw [frameIfDue_of_due hdue] at h
    obtain ⟨hgoes, rfl⟩ := Prod.ext_iff.mp h
    replace hgoes : (Done.refreshed (r.console.perform .tick).2.refresh.1).ending? = none := hgoes
    have hshown : (r.console.perform .tick).2.refresh.1 = none := by
      cases hr : (r.console.perform .tick).2.refresh.1 with
      | none => rfl
      | some fault =>
        rw [hr] at hgoes
        cases hgoes
    rw [if_pos hdue]
    exact ⟨if_pos hshown, rfl⟩
  · have hearly : r.frameIfDue pace now = (none, r) := if_neg hdue
    obtain rfl := (Prod.ext_iff.mp (hearly.symm.trans h)).2
    exact ⟨(if_neg hdue).symm, rfl⟩

theorem stepIfDue_deadlines {stepped : Run κ ρ σ} (h : r.stepIfDue pace now = (none, stepped)) :
    stepped.nextFrame = r.nextFrame ∧
      stepped.nextStep =
        if r.nextStep ≤ now then nextDeadline r.nextStep pace.stepPeriod now pace.framePeriod
        else r.nextStep := by
  by_cases hdue : r.nextStep ≤ now
  · rw [stepIfDue_of_due hdue] at h
    obtain ⟨hgoes, rfl⟩ := Prod.ext_iff.mp h
    replace hgoes : (Done.stepped r.console.machine.step.outcome).ending? = none := hgoes
    have hproceeds : r.console.machine.step.outcome = .proceeds := by
      cases ho : r.console.machine.step.outcome with
      | proceeds => rfl
      | quits =>
        rw [ho] at hgoes
        cases hgoes
      | faults fault =>
        rw [ho] at hgoes
        cases hgoes
    rw [if_pos hdue]
    exact ⟨rfl, if_pos hproceeds⟩
  · have hearly : r.stepIfDue pace now = (none, r) := if_neg hdue
    obtain rfl := (Prod.ext_iff.mp (hearly.symm.trans h)).2
    exact ⟨rfl, (if_neg hdue).symm⟩

theorem pass_of_quit {asked : Run κ ρ σ} (h : r.askQuit = (true, asked)) :
    r.pass pace now = (some .stopped, asked) := by
  simp only [pass_eq, h]

theorem pass_of_ended {asked framed : Run κ ρ σ} {ending : Ending}
    (h : r.askQuit = (false, asked)) (hf : asked.frameIfDue pace now = (some ending, framed)) :
    r.pass pace now = (some ending, framed) := by
  simp only [pass_eq, h, hf]

theorem pass_of_framed {asked framed : Run κ ρ σ} (h : r.askQuit = (false, asked))
    (hf : asked.frameIfDue pace now = (none, framed)) :
    r.pass pace now = framed.stepIfDue pace now := by
  simp only [pass_eq, h, hf]

/-- A pass comes to its duties if just these are due. -/
theorem pass_does {first : Bool} (hframe : r.nextFrame ≤ now ↔ pace.framePeriod = 0)
    (hstep : r.nextStep ≤ now ↔ pace.stepPeriod = 0 ∨ first = true) :
    r.Does (pace.duties first) (r.pass pace now) := by
  rcases hask : r.askQuit with ⟨_ | _, asked⟩
  · have hasked : r.Does [.askQuit] (none, asked) := askQuit_does hask
    obtain ⟨hsameFrame, hsameStep⟩ := askQuit_deadlines hask
    rw [← hsameFrame] at hframe
    rw [← hsameStep] at hstep
    have hframed := frameIfDue_does hframe
    refine hasked.append ?_
    rcases hf : asked.frameIfDue pace now with ⟨_ | ending, framed⟩
    · rw [hf] at hframed
      rw [← (frameIfDue_deadlines hf).2] at hstep
      rw [pass_of_framed hask hf]
      exact hframed.append (stepIfDue_does hstep)
    · rw [hf] at hframed
      rw [pass_of_ended hask hf]
      exact hframed.of_ended _
  · have hasked : r.Does [.askQuit] (some .stopped, asked) := askQuit_does hask
    rw [pass_of_quit hask]
    exact hasked.of_ended _

/-- A pass that goes on moves the deadlines that were due. -/
theorem pass_deadlines {passed : Run κ ρ σ} (h : r.pass pace now = (none, passed)) :
    passed.nextFrame =
        (if r.nextFrame ≤ now then nextDeadline r.nextFrame pace.framePeriod now pace.framePeriod
        else r.nextFrame) ∧
      passed.nextStep =
        if r.nextStep ≤ now then nextDeadline r.nextStep pace.stepPeriod now pace.framePeriod
        else r.nextStep := by
  rcases hask : r.askQuit with ⟨_ | _, asked⟩
  · obtain ⟨hsameFrame, hsameStep⟩ := askQuit_deadlines hask
    rw [← hsameFrame, ← hsameStep]
    rcases hf : asked.frameIfDue pace now with ⟨_ | ending, framed⟩
    · rw [pass_of_framed hask hf] at h
      obtain ⟨hframe, hkept⟩ := frameIfDue_deadlines hf
      obtain ⟨hleft, hstep⟩ := stepIfDue_deadlines h
      rw [hkept] at hstep
      exact ⟨hleft.trans hframe, hstep⟩
    · rw [pass_of_ended hask hf] at h
      cases h
  · rw [pass_of_quit hask] at h
    cases h

theorem OnTime.after_pass {passed : Run κ ρ σ} (h : r.OnTime pace begun last first)
    (hnow : last ≤ now) (hframe : pace.framePeriod = 0 ∨ now < begun + pace.framePeriod)
    (hstep : pace.stepPeriod = 0 ∨ now < begun + pace.stepPeriod)
    (hpass : r.pass pace now = (none, passed)) : passed.OnTime pace begun now false := by
  have hframeDue := h.frame_due hnow hframe
  have hstepDue := h.step_due hnow hstep
  obtain ⟨hnextFrame, hnextStep⟩ := pass_deadlines hpass
  constructor
  case begun_le => exact Nat.le_trans h.begun_le hnow
  case frame_zero =>
    intro hzero
    have hdue := hframeDue.mpr hzero
    rw [hnextFrame, if_pos hdue, hzero]
    exact nextDeadline_zero hdue 0
  case frame_long =>
    intro hpositive
    rw [hnextFrame, if_neg (mt hframeDue.mp hpositive)]
    exact h.frame_long hpositive
  case step_first =>
    intro hfirst
    cases hfirst
  case step_zero =>
    intro hzero
    have hdue := hstepDue.mpr (.inl hzero)
    rw [hnextStep, if_pos hdue, hzero]
    exact nextDeadline_zero hdue _
  case step_long =>
    intro hpositive _
    have hlater := hstep.resolve_left hpositive
    cases first with
    | true =>
      have hbegun := h.step_first rfl
      rw [hnextStep, if_pos (hstepDue.mpr (.inr rfl)), hbegun]
      exact nextDeadline_early hlater _
    | false =>
      have hnext := h.step_long hpositive rfl
      rw [hnextStep, if_neg (by omega), hnext]

/-- What the clock shows in the passes of a run, which are at most `passes`. -/
def readings (r : Run κ ρ σ) (pace : Pace) (clock : Clock) (number : Nat) : Nat → List Nat
  | 0 => []
  | passes + 1 =>
    clock number r.wake ::
      match r.pass pace (clock number r.wake) with
      | (some _, _) => []
      | (none, passed) => passed.readings pace clock (number + 1) passes

/-- The run lemma. -/
theorem OnTime.goOn_does {clock : Clock} (h : r.OnTime pace begun last first)
    (number passes : Nat)
    (hforward : (last :: r.readings pace clock number passes).Pairwise (· ≤ ·))
    (hframe : pace.framePeriod = 0 ∨
      ∀ t ∈ r.readings pace clock number passes, t < begun + pace.framePeriod)
    (hstep : pace.stepPeriod = 0 ∨
      ∀ t ∈ r.readings pace clock number passes, t < begun + pace.stepPeriod) :
    r.Does (pace.schedule first passes) (r.goOn pace clock number passes) := by
  induction passes generalizing r number last first with
  | zero => exact r.does_nothing
  | succ passes ih =>
    unfold readings at hforward hframe hstep
    obtain ⟨hfirst, hrest⟩ := List.pairwise_cons.mp hforward
    have hnow := hfirst _ List.mem_cons_self
    have hframeNow := hframe.imp_right fun hlong => hlong _ List.mem_cons_self
    have hstepNow := hstep.imp_right fun hlong => hlong _ List.mem_cons_self
    have hpass := pass_does (h.frame_due hnow hframeNow) (h.step_due hnow hstepNow)
    unfold goOn Pace.schedule
    rcases hp : r.pass pace (clock number r.wake) with ⟨_ | ending, passed⟩
    · rw [hp] at hpass
      simp only [hp] at hrest hframe hstep
      have hpassed := h.after_pass hnow hframeNow hstepNow hp
      exact hpass.append (ih hpassed (number + 1) hrest
        (hframe.imp_right fun hlong t ht => hlong t (List.mem_cons_of_mem _ ht))
        (hstep.imp_right fun hlong t ht => hlong t (List.mem_cons_of_mem _ ht)))
    · rw [hp] at hpass
      exact hpass.of_ended _

/-- **A run keeps to its schedule.** Let the clock never go back, and let each period be zero or
longer than the run. Then a run of at most `passes` passes carries out the duties of that many
passes in order, up to the first that ends it, and nothing else: so it ends, what it leaves and what
it counts are what comes of those duties. A run that is not over has made every pass in full. A run
that is over has made `n` passes in full and left the next by an exit, its question being the one after
the `n`-th; with both periods zero it has counted `n` steps and `n` frames, and one more frame if
the last pass came to its step. After a refresh that fails the request to paint stands. -/
theorem run_keeps_to_schedule (console : Console κ ρ σ) (pace : Pace) (clock : Clock)
    (begun passes : Nat)
    (hforward : (begun :: (start console pace begun).readings pace clock 0 passes).Pairwise (· ≤ ·))
    (hframe : pace.framePeriod = 0 ∨
      ∀ t ∈ (start console pace begun).readings pace clock 0 passes, t < begun + pace.framePeriod)
    (hstep : pace.stepPeriod = 0 ∨
      ∀ t ∈ (start console pace begun).readings pace clock 0 passes, t < begun + pace.stepPeriod) :
    let result := (start console pace begun).goOn pace clock 0 passes
    let performed := console.performAll (pace.schedule true passes)
    let dones := performed.1
    result.1 = Done.endingOf dones ∧
    result.2.console = performed.2 ∧
    result.2.tally = ⟨dones.count (.stepped .proceeds), dones.count (.refreshed none)⟩ ∧
    (result.1 = none → dones = (pace.schedule true passes).map Duty.plain) ∧
    (∀ ending, result.1 = some ending → ∃ n < passes, ∃ last,
      dones = (pace.schedule true n).map Duty.plain ++ last ∧ Exit pace (n == 0) last ending ∧
      (dones.map Done.duty).count .askQuit = n + 1 ∧
      (pace.framePeriod = 0 → pace.stepPeriod = 0 →
        result.2.tally = ⟨n, n + (last.map Done.duty).count .step⟩)) ∧
    (∀ fault, .refreshed (some fault) ∈ dones →
      result.2.console.machine.display.refreshRequested = true) := by
  intro result performed dones
  have hdoes : (start console pace begun).Does (pace.schedule true passes) result :=
    (onTime_start console pace begun).goOn_does 0 passes hforward hframe hstep
  have hending : result.1 = Done.endingOf dones := hdoes.ending
  have hconsole : result.2.console = performed.2 := hdoes.console
  have htally : result.2.tally =
      ⟨dones.count (.stepped .proceeds), dones.count (.refreshed none)⟩ := by
    rw [hdoes.tally]
    simp only [Tally.plus, start, Nat.zero_add]
    rfl
  refine ⟨hending, hconsole, htally, ?_, ?_, ?_⟩
  · intro hgoes
    exact Console.performAll_plain (hending.symm.trans hgoes)
  · intro ending hover
    obtain ⟨n, hn, last, hdones, hexit⟩ := Console.schedule_ended (hending.symm.trans hover)
    replace hdones : dones = (pace.schedule true n).map Duty.plain ++ last := hdones
    have hquestions : (dones.map Done.duty).count .askQuit = n + 1 := by
      rw [hdones, List.map_append, Duty.duties_of_plain, List.count_append, pace.count_questions,
        hexit.count_questions]
    refine ⟨n, hn, last, hdones, hexit, hquestions, ?_⟩
    intro hframeZero hstepZero
    obtain ⟨hfullSteps, hfullFrames⟩ := Pace.count_schedule hframeZero hstepZero true n
    obtain ⟨hlastSteps, hlastFrames⟩ := hexit.counts hframeZero
    have hsteps : dones.count (.stepped .proceeds) = n := by
      rw [hdones, List.count_append, hfullSteps, hlastSteps, Nat.add_zero]
    have hframes : dones.count (.refreshed none) = n + (last.map Done.duty).count .step := by
      rw [hdones, List.count_append, hfullFrames, hlastFrames]
    rw [htally, hsteps, hframes]
  · intro fault hfailed
    rw [hconsole]
    exact Console.request_stands hfailed

/-- The screen is cleared once, in the first pass, and cannot be painted in the second. -/
theorem run_keeps_to_schedule_until_paint_fails :
    let keys : ScriptedKeys := ⟨[], [], 0, some 5⟩
    let random : ScriptedRandom := ⟨[], 0⟩
    let machine := (Machine.fresh keys random).after [.load (.ofBytes [0x00, 0xe0])]
    let console : Console ScriptedKeys ScriptedRandom CountingScreen := ⟨machine, ⟨0, some 2⟩⟩
    let pace : Pace := ⟨1000, 0⟩
    let clock : Clock := fun number _ => 7 + number
    let times := (start console pace 7).readings pace clock 0 9
    let result := (start console pace 7).goOn pace clock 0 9
    ((7 :: times).Pairwise (· ≤ ·) ∧ (pace.framePeriod = 0 ∨ ∀ t ∈ times, t < 7 + pace.framePeriod) ∧
        (pace.stepPeriod = 0 ∨ ∀ t ∈ times, t < 7 + pace.stepPeriod)) ∧
      times = [7, 8] ∧
      (console.performAll (pace.schedule true 9)).1 =
        [.asked false, .ticked, .refreshed none, .stepped .proceeds,
          .asked false, .ticked, .refreshed (some (.device "screen is gone"))] ∧
      result.1 = some (.failed (.device "screen is gone")) ∧ result.2.tally = ⟨1, 1⟩ ∧
      result.2.console.machine.display.refreshRequested = true := by
  intro keys random machine console pace clock times result
  have htimes : times = [7, 8] := by decide +kernel
  have hforward : (7 :: times).Pairwise (· ≤ ·) := by
    rw [htimes]
    decide
  have hlater : ∀ t ∈ times, t < 7 + pace.stepPeriod := by
    rw [htimes]
    decide
  have hdones : (console.performAll (pace.schedule true 9)).1 =
      [.asked false, .ticked, .refreshed none, .stepped .proceeds,
        .asked false, .ticked, .refreshed (some (.device "screen is gone"))] := by
    decide +kernel
  obtain ⟨hending, -, htally, -, -, hstands⟩ :=
    run_keeps_to_schedule console pace clock 7 9 hforward (.inl rfl) (.inr hlater)
  rw [hdones] at hending htally hstands
  exact ⟨⟨hforward, .inl rfl, .inr hlater⟩, htimes, hdones, hending, htally,
    hstands (.device "screen is gone") (by decide)⟩

end Run

end Chip8
