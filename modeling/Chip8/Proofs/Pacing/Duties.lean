import Chip8.Pacing
import Chip8.Proofs.Screen.Freshness

/-!
# Duties

What a run does to its console, as data: duties, carried out in order up to the first that ends the
run. The duties of a pass are known beforehand if each period is zero, or longer than the run.
`Exit` lists the places of a pass where a run may end.
-/

namespace Chip8

/-- What a run does to its console. -/
inductive Duty where
  | askQuit
  | tick
  | refresh
  | step
  deriving DecidableEq, Repr

/-- A duty that was carried out, and what came of it. -/
inductive Done where
  | asked (quit : Bool)
  | ticked
  | refreshed (fault : Option Fault)
  | stepped (outcome : Outcome)
  deriving DecidableEq, Repr

namespace Done

def duty : Done → Duty
  | asked _ => .askQuit
  | ticked => .tick
  | refreshed _ => .refresh
  | stepped _ => .step

/-- How a run ends with it, if it does. -/
def ending? : Done → Option Ending
  | asked true => some .stopped
  | refreshed (some fault) => some (.failed fault)
  | stepped .quits => some .stopped
  | stepped (.faults fault) => some (.failed fault)
  | _ => none

/-- The first ending among some. -/
def endingOf (dones : List Done) : Option Ending :=
  dones.findSome? ending?

theorem endingOf_cons_of_ended {d : Done} {ending : Ending} (h : d.ending? = some ending)
    (dones : List Done) : endingOf (d :: dones) = some ending := by
  rw [endingOf, List.findSome?_cons, h]

theorem endingOf_cons_of_going {d : Done} (h : d.ending? = none) (dones : List Done) :
    endingOf (d :: dones) = endingOf dones := by
  rw [endingOf, List.findSome?_cons, h]
  rfl

theorem endingOf_one (d : Done) : endingOf [d] = d.ending? := by
  cases hd : d.ending? with
  | none => exact endingOf_cons_of_going hd []
  | some ending => exact endingOf_cons_of_ended hd []

theorem endingOf_append_of_going {first : List Done} (h : endingOf first = none)
    (second : List Done) : endingOf (first ++ second) = endingOf second := by
  rw [endingOf, List.findSome?_append]
  show (endingOf first).or (endingOf second) = _
  rw [h, Option.none_or]

end Done

/-- What comes of a duty that ends nothing. -/
def Duty.plain : Duty → Done
  | askQuit => .asked false
  | tick => .ticked
  | refresh => .refreshed none
  | step => .stepped .proceeds

theorem Duty.duties_of_plain (duties : List Duty) :
    (duties.map Duty.plain).map Done.duty = duties := by
  have hduty : Done.duty ∘ Duty.plain = id := by
    funext duty
    cases duty <;> rfl
  rw [List.map_map, hduty, List.map_id]

theorem Done.eq_plain {d : Done} (h : d.ending? = none) : d = d.duty.plain := by
  cases d with
  | asked quit => cases quit with
    | true => cases h
    | false => rfl
  | ticked => rfl
  | refreshed fault => cases fault with
    | none => rfl
    | some fault => cases h
  | stepped outcome => cases outcome with
    | proceeds => rfl
    | quits => cases h
    | faults fault => cases h

namespace Pace

/-- The duties of a frame, if frames are always due. -/
def frameDuties (pace : Pace) : List Duty :=
  if pace.framePeriod = 0 then [.tick, .refresh] else []

/-- The duty of a step, if steps are always due or the pass is the first of the run. -/
def stepDuties (pace : Pace) (first : Bool) : List Duty :=
  if pace.stepPeriod = 0 ∨ first = true then [.step] else []

def duties (pace : Pace) (first : Bool) : List Duty :=
  [.askQuit] ++ (pace.frameDuties ++ pace.stepDuties first)

/-- The duties of some passes. -/
def schedule (pace : Pace) (first : Bool) : Nat → List Duty
  | 0 => []
  | passes + 1 => pace.duties first ++ pace.schedule false passes

theorem schedule_succ (pace : Pace) (first : Bool) (passes : Nat) :
    pace.schedule first (passes + 1) = pace.duties first ++ pace.schedule false passes :=
  rfl

end Pace

namespace Console

/-- A refresh that fails leaves the request to paint standing. -/
theorem refresh_failed {κ ρ σ : Type} [Screen σ] {c : Console κ ρ σ} {fault : Fault}
    (h : c.refresh.1 = some fault) :
    c.refresh.2.machine.display.refreshRequested = true := by
  cases hr : c.machine.display.refreshRequested with
  | false =>
    rw [refresh_of_unrequested hr] at h
    cases h
  | true =>
    rcases hp : Screen.paint c.screen c.machine.display.picture with ⟨after, _ | reason⟩
    · rw [refresh_of_painted hr hp] at h
      cases h
    · rw [refresh_of_failed hr hp]
      exact hr

variable {κ ρ σ : Type} [Keypad κ] [RandomSource ρ] [Screen σ]

def perform (c : Console κ ρ σ) : Duty → Done × Console κ ρ σ
  | .askQuit =>
    let reading := Keypad.quitRequested c.machine.keys
    (.asked reading.answer, { c with machine := { c.machine with keys := reading.keys } })
  | .tick => (.ticked, { c with machine := c.machine.tick.machine })
  | .refresh => (.refreshed c.refresh.1, c.refresh.2)
  | .step => (.stepped c.machine.step.outcome, { c with machine := c.machine.step.machine })

/-- Carries out duties in order, up to the first that ends a run. -/
def performAll (c : Console κ ρ σ) : List Duty → List Done × Console κ ρ σ
  | [] => ([], c)
  | duty :: rest =>
    match (c.perform duty).1.ending? with
    | some _ => ([(c.perform duty).1], (c.perform duty).2)
    | none =>
      ((c.perform duty).1 :: ((c.perform duty).2.performAll rest).1,
        ((c.perform duty).2.performAll rest).2)

theorem perform_duty (c : Console κ ρ σ) (duty : Duty) : (c.perform duty).1.duty = duty := by
  cases duty <;> rfl

variable {c : Console κ ρ σ} {duty : Duty} {duties : List Duty}

theorem performAll_of_ended {ending : Ending} (h : (c.perform duty).1.ending? = some ending)
    (rest : List Duty) : c.performAll (duty :: rest) = ([(c.perform duty).1], (c.perform duty).2) := by
  simp only [performAll, h]

theorem performAll_of_going (h : (c.perform duty).1.ending? = none) (rest : List Duty) :
    c.performAll (duty :: rest) =
      ((c.perform duty).1 :: ((c.perform duty).2.performAll rest).1,
        ((c.perform duty).2.performAll rest).2) := by
  simp only [performAll, h]

theorem performAll_one (c : Console κ ρ σ) (duty : Duty) :
    c.performAll [duty] = ([(c.perform duty).1], (c.perform duty).2) := by
  cases hd : (c.perform duty).1.ending? with
  | none => exact performAll_of_going hd []
  | some ending => exact performAll_of_ended hd []

/-- Duties that end nothing are carried out to the last, each as it should be. -/
theorem performAll_plain (h : Done.endingOf (c.performAll duties).1 = none) :
    (c.performAll duties).1 = duties.map Duty.plain := by
  induction duties generalizing c with
  | nil => rfl
  | cons duty rest ih =>
    cases hd : (c.perform duty).1.ending? with
    | some ending =>
      rw [performAll_of_ended hd, Done.endingOf_cons_of_ended hd] at h
      cases h
    | none =>
      rw [performAll_of_going hd, Done.endingOf_cons_of_going hd] at h
      have hplain := Done.eq_plain hd
      rw [perform_duty] at hplain
      rw [performAll_of_going hd, ih h, hplain, List.map_cons]

theorem performAll_append_of_ended {first : List Duty} {ending : Ending}
    (h : Done.endingOf (c.performAll first).1 = some ending) (second : List Duty) :
    c.performAll (first ++ second) = c.performAll first := by
  induction first generalizing c with
  | nil => cases h
  | cons duty rest ih =>
    rw [List.cons_append]
    cases hd : (c.perform duty).1.ending? with
    | some ending => rw [performAll_of_ended hd, performAll_of_ended hd]
    | none =>
      rw [performAll_of_going hd, Done.endingOf_cons_of_going hd] at h
      rw [performAll_of_going hd, performAll_of_going hd, ih h]

theorem performAll_append_of_going {first : List Duty}
    (h : Done.endingOf (c.performAll first).1 = none) (second : List Duty) :
    c.performAll (first ++ second) =
      ((c.performAll first).1 ++ ((c.performAll first).2.performAll second).1,
        ((c.performAll first).2.performAll second).2) := by
  induction first generalizing c with
  | nil => rfl
  | cons duty rest ih =>
    rw [List.cons_append]
    cases hd : (c.perform duty).1.ending? with
    | some ending =>
      rw [performAll_of_ended hd, Done.endingOf_cons_of_ended hd] at h
      cases h
    | none =>
      rw [performAll_of_going hd, Done.endingOf_cons_of_going hd] at h
      rw [performAll_of_going hd, performAll_of_going hd, ih h]
      rfl

theorem request_stands {fault : Fault}
    (h : Done.refreshed (some fault) ∈ (c.performAll duties).1) :
    (c.performAll duties).2.machine.display.refreshRequested = true := by
  induction duties generalizing c with
  | nil => cases h
  | cons duty rest ih =>
    cases hd : (c.perform duty).1.ending? with
    | some ending =>
      rw [performAll_of_ended hd] at h ⊢
      have hlast := List.mem_singleton.mp h
      cases duty with
      | refresh => exact refresh_failed (Done.refreshed.inj hlast).symm
      | _ => cases hlast
    | none =>
      rw [performAll_of_going hd] at h ⊢
      rcases List.mem_cons.mp h with hfirst | hlater
      · rw [← hfirst] at hd
        cases hd
      · exact ih hlater

end Console

/-- Where a pass may end a run: what was carried out in the pass, and the ending. -/
inductive Exit (pace : Pace) (first : Bool) : List Done → Ending → Prop where
  | quit : Exit pace first [.asked true] .stopped
  | unpainted (fault : Fault) (hframe : pace.framePeriod = 0) :
      Exit pace first [.asked false, .ticked, .refreshed (some fault)] (.failed fault)
  | halted (hstep : pace.stepPeriod = 0 ∨ first = true) :
      Exit pace first (.asked false :: (pace.frameDuties.map Duty.plain ++ [.stepped .quits]))
        .stopped
  | faulted (fault : Fault) (hstep : pace.stepPeriod = 0 ∨ first = true) :
      Exit pace first
        (.asked false :: (pace.frameDuties.map Duty.plain ++ [.stepped (.faults fault)]))
        (.failed fault)

namespace Console

variable {κ ρ σ : Type} [Keypad κ] [RandomSource ρ] [Screen σ]
variable {c : Console κ ρ σ} {pace : Pace} {first : Bool} {ending : Ending}

/-- A frame ends a run by a refresh that fails. -/
theorem frame_ended (h : Done.endingOf (c.performAll pace.frameDuties).1 = some ending) :
    pace.framePeriod = 0 ∧ ∃ fault, ending = .failed fault ∧
      (c.performAll pace.frameDuties).1 = [.ticked, .refreshed (some fault)] := by
  unfold Pace.frameDuties at h ⊢
  by_cases hzero : pace.framePeriod = 0
  · let ticked : Console κ ρ σ := (c.perform .tick).2
    have hall : (c.performAll [.tick, .refresh]).1 = [.ticked, .refreshed ticked.refresh.1] := by
      rw [performAll_of_going rfl, performAll_one]
      rfl
    rw [if_pos hzero, hall] at h ⊢
    rw [Done.endingOf_cons_of_going rfl, Done.endingOf_one] at h
    cases hr : ticked.refresh.1 with
    | none =>
      rw [hr] at h
      cases h
    | some fault =>
      rw [hr] at h
      exact ⟨hzero, fault, (Option.some.inj h).symm, rfl⟩
  · rw [if_neg hzero] at h
    cases h

/-- A step ends a run by a quit or a fault. -/
theorem step_ended (h : Done.endingOf (c.performAll (pace.stepDuties first)).1 = some ending) :
    (pace.stepPeriod = 0 ∨ first = true) ∧
      ((ending = .stopped ∧ (c.performAll (pace.stepDuties first)).1 = [.stepped .quits]) ∨
        ∃ fault, ending = .failed fault ∧
          (c.performAll (pace.stepDuties first)).1 = [.stepped (.faults fault)]) := by
  unfold Pace.stepDuties at h ⊢
  by_cases hstep : pace.stepPeriod = 0 ∨ first = true
  · have hall : (c.performAll [.step]).1 = [.stepped c.machine.step.outcome] := by
      rw [performAll_one]
      rfl
    rw [if_pos hstep, hall] at h ⊢
    rw [Done.endingOf_one] at h
    refine ⟨hstep, ?_⟩
    cases ho : c.machine.step.outcome with
    | proceeds =>
      rw [ho] at h
      cases h
    | quits =>
      rw [ho] at h
      exact .inl ⟨(Option.some.inj h).symm, rfl⟩
    | faults fault =>
      rw [ho] at h
      exact .inr ⟨fault, (Option.some.inj h).symm, rfl⟩
  · rw [if_neg hstep] at h
    cases h

/-- A pass that ends a run leaves it by one of the exits. -/
theorem pass_ended (h : Done.endingOf (c.performAll (pace.duties first)).1 = some ending) :
    Exit pace first (c.performAll (pace.duties first)).1 ending := by
  unfold Pace.duties at h ⊢
  have hask : (c.performAll [.askQuit]).1 =
      [.asked (Keypad.quitRequested c.machine.keys).answer] := by
    rw [performAll_one]
    rfl
  cases hquit : (Keypad.quitRequested c.machine.keys).answer with
  | true =>
    rw [hquit] at hask
    have hended : Done.endingOf (c.performAll [.askQuit]).1 = some .stopped := by
      rw [hask]
      rfl
    rw [performAll_append_of_ended hended, hended] at h
    rw [performAll_append_of_ended hended, hask, ← Option.some.inj h]
    exact .quit
  | false =>
    rw [hquit] at hask
    have hgoing : Done.endingOf (c.performAll [.askQuit]).1 = none := by
      rw [hask]
      rfl
    rw [performAll_append_of_going hgoing, Done.endingOf_append_of_going hgoing] at h
    rw [performAll_append_of_going hgoing, hask]
    generalize (c.performAll [.askQuit]).2 = asked at h ⊢
    cases hf : Done.endingOf (asked.performAll pace.frameDuties).1 with
    | some ended =>
      rw [performAll_append_of_ended hf, hf] at h
      obtain ⟨hzero, fault, rfl, hdones⟩ := frame_ended hf
      rw [performAll_append_of_ended hf, hdones, ← Option.some.inj h]
      exact .unpainted fault hzero
    | none =>
      rw [performAll_append_of_going hf, Done.endingOf_append_of_going hf] at h
      rw [performAll_append_of_going hf, performAll_plain hf]
      obtain ⟨hstep, ⟨rfl, hdones⟩ | ⟨fault, rfl, hdones⟩⟩ := step_ended h
      · rw [hdones]
        exact .halted hstep
      · rw [hdones]
        exact .faulted fault hstep

/-- A schedule that ends a run comes to some passes that do not, and to an exit from the next. -/
theorem schedule_ended {passes : Nat}
    (h : Done.endingOf (c.performAll (pace.schedule first passes)).1 = some ending) :
    ∃ n < passes, ∃ last,
      (c.performAll (pace.schedule first passes)).1 =
        (pace.schedule first n).map Duty.plain ++ last ∧
      Exit pace (first && n == 0) last ending := by
  induction passes generalizing c first with
  | zero => cases h
  | succ passes ih =>
    rw [Pace.schedule_succ] at h ⊢
    cases hp : Done.endingOf (c.performAll (pace.duties first)).1 with
    | some ended =>
      rw [performAll_append_of_ended hp] at h
      refine ⟨0, Nat.zero_lt_succ passes, (c.performAll (pace.duties first)).1, ?_, ?_⟩
      · rw [performAll_append_of_ended hp]
        rfl
      · rw [beq_self_eq_true, Bool.and_true]
        exact pass_ended h
    | none =>
      rw [performAll_append_of_going hp, Done.endingOf_append_of_going hp] at h
      obtain ⟨n, hn, last, hdones, hexit⟩ := ih h
      refine ⟨n + 1, Nat.succ_lt_succ hn, last, ?_, ?_⟩
      · rw [performAll_append_of_going hp, performAll_plain hp, hdones, Pace.schedule_succ,
          List.map_append, List.append_assoc]
      · have hlater : (first && n + 1 == 0) = false := by cases first <;> rfl
        rw [hlater]
        exact hexit

end Console

/-- Each pass asks once. -/
theorem Pace.count_questions (pace : Pace) (first : Bool) (n : Nat) :
    (pace.schedule first n).count .askQuit = n := by
  induction n generalizing first with
  | zero => rfl
  | succ n ih =>
    have hone : (pace.duties first).count .askQuit = 1 := by
      unfold duties frameDuties stepDuties
      split <;> split <;> rfl
    rw [schedule_succ, List.count_append, hone, ih, Nat.add_comm]

theorem Exit.count_questions {pace : Pace} {first : Bool} {last : List Done} {ending : Ending}
    (h : Exit pace first last ending) : (last.map Done.duty).count .askQuit = 1 := by
  have hframe : pace.frameDuties.count .askQuit = 0 := by
    unfold Pace.frameDuties
    split <;> rfl
  cases h with
  | quit => rfl
  | unpainted fault => rfl
  | halted =>
    rw [List.map_cons, List.map_append, Duty.duties_of_plain, List.count_cons, List.count_append,
      hframe]
    rfl
  | faulted fault =>
    rw [List.map_cons, List.map_append, Duty.duties_of_plain, List.count_cons, List.count_append,
      hframe]
    rfl

/-- With both periods zero, some passes that do not end a run are as many steps and frames. -/
theorem Pace.count_schedule {pace : Pace} (hframe : pace.framePeriod = 0)
    (hstep : pace.stepPeriod = 0) (first : Bool) (n : Nat) :
    ((pace.schedule first n).map Duty.plain).count (.stepped .proceeds) = n ∧
      ((pace.schedule first n).map Duty.plain).count (.refreshed none) = n := by
  induction n generalizing first with
  | zero => exact ⟨rfl, rfl⟩
  | succ n ih =>
    obtain ⟨hsteps, hframes⟩ := ih false
    have hduties : (pace.duties first).map Duty.plain =
        [.asked false, .ticked, .refreshed none, .stepped .proceeds] := by
      unfold duties frameDuties stepDuties
      rw [if_pos hframe, if_pos (.inl hstep)]
      rfl
    rw [schedule_succ, List.map_append, hduties, List.count_append, List.count_append, hsteps, hframes]
    exact ⟨Nat.add_comm 1 n, Nat.add_comm 1 n⟩

/-- The last pass counts no step, and its frame only if it came to a step. -/
theorem Exit.counts {pace : Pace} {first : Bool} {last : List Done} {ending : Ending}
    (h : Exit pace first last ending) (hframe : pace.framePeriod = 0) :
    last.count (.stepped .proceeds) = 0 ∧
      last.count (.refreshed none) = (last.map Done.duty).count .step := by
  have hduties : pace.frameDuties = [.tick, .refresh] := if_pos hframe
  cases h with
  | quit => exact ⟨rfl, rfl⟩
  | unpainted fault => exact ⟨rfl, rfl⟩
  | halted =>
    rw [hduties]
    exact ⟨rfl, rfl⟩
  | faulted fault =>
    rw [hduties]
    exact ⟨rfl, rfl⟩

end Chip8
