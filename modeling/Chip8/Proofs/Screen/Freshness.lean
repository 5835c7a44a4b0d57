import Chip8.Keypad.Scripted
import Chip8.Proofs.Machine.Soundness

/-!
# Screens are never stale

A recorded screen writes down what it is asked to paint and how that ended, and otherwise does what
the screen behind it does. On the record stands what the user sees: the picture of the last paint
that succeeded. `UpToDate` says that a display that asks for no paint is the one seen. Whatever
changes a picture asks for a paint, and only a paint that succeeded takes the request back, so it
holds throughout.
-/

namespace Chip8

/-- A paint that was asked for, and the reason if it failed. -/
structure PaintAttempt where
  picture : Framebuffer
  failure : Option String
  deriving DecidableEq, Repr

/-- A screen, and every paint it has been asked for, in order. -/
structure Recorded (σ : Type) where
  screen : σ
  attempts : List PaintAttempt
  deriving DecidableEq, Repr

namespace Recorded

variable {σ : Type}

def start (screen : σ) : Recorded σ :=
  ⟨screen, []⟩

instance [Screen σ] : Screen (Recorded σ) where
  paint s picture :=
    let (painted, failure) := Screen.paint s.screen picture
    (⟨painted, s.attempts ++ [⟨picture, failure⟩]⟩, failure)

theorem paint_of [Screen σ] {s : Recorded σ} {picture : Framebuffer} {after : σ}
    {failure : Option String} (h : Screen.paint s.screen picture = (after, failure)) :
    Screen.paint s picture = (⟨after, s.attempts ++ [⟨picture, failure⟩]⟩, failure) := by
  simp only [Screen.paint, h]

/-- The picture of the last paint that succeeded. -/
def shown (s : Recorded σ) : Option Framebuffer :=
  (s.attempts.reverse.find? (·.failure.isNone)).map (·.picture)

theorem shown_concat (screen : σ) (attempts : List PaintAttempt) (attempt : PaintAttempt) :
    (Recorded.mk screen (attempts ++ [attempt])).shown =
      if attempt.failure.isNone then some attempt.picture
      else (Recorded.mk screen attempts).shown := by
  unfold shown
  rw [List.reverse_append, List.reverse_singleton, List.singleton_append, List.find?_cons]
  cases attempt.failure.isNone <;> rfl

end Recorded

namespace Machine

variable {κ ρ : Type}

/-- An instruction leaves the display alone or asks for a paint. -/
theorem displayAfter_requests (m : Machine κ ρ) (i : Instruction) :
    m.displayAfter i = m.display ∨ (m.displayAfter i).refreshRequested = true := by
  cases i with
  | clear => exact .inr rfl
  | draw x y n =>
    simp only [displayAfter]
    split
    · exact .inr rfl
    · exact .inl rfl
  | _ => exact .inl rfl

variable [Keypad κ] [RandomSource ρ]

theorem execute_requests (m : Machine κ ρ) (i : Instruction) :
    (m.execute i).machine.display = m.display ∨
      (m.execute i).machine.display.refreshRequested = true := by
  rw [execute_eq]
  exact m.displayAfter_requests i

/-- So does every action: loads and frames do not touch the display at all. -/
theorem act_requests (m : Machine κ ρ) (a : Action) :
    (m.act a).machine.display = m.display ∨
      (m.act a).machine.display.refreshRequested = true := by
  cases a with
  | load source =>
    left
    show (m.loadFrom source).machine.display = m.display
    rw [loadFrom_machine]
  | tick =>
    left
    show m.tick.machine.display = m.display
    rw [tick_machine]
  | step =>
    cases hw : Instruction.ofWord? m.nextWord with
    | none =>
      left
      show m.step.machine.display = m.display
      rw [step_of_unknown hw]
      rfl
    | some i =>
      have hdisplay := m.fetched.displayAfter_requests i
      show m.step.machine.display = m.display ∨ m.step.machine.display.refreshRequested = true
      rw [step_of_known hw]
      exact hdisplay

end Machine

namespace Console

variable {κ ρ σ : Type}

/-- The console without its record. -/
def unrecorded (c : Console κ ρ (Recorded σ)) : Console κ ρ σ :=
  ⟨c.machine, c.screen.screen⟩

/-- A display that asks for no paint is what the last successful paint has put on the screen. -/
def UpToDate (c : Console κ ρ (Recorded σ)) : Prop :=
  c.machine.display.refreshRequested = false → c.screen.shown = some c.machine.display.picture

/-- A fresh display asks for its first paint. -/
theorem upToDate_fresh (keys : κ) (random : ρ) (screen : σ) :
    (Console.mk (Machine.fresh keys random) (Recorded.start screen)).UpToDate := by
  intro hclean
  cases hclean

/-- A machine that leaves the display alone or asks for a paint keeps the screen up to date. -/
theorem UpToDate.of_requests {c : Console κ ρ (Recorded σ)} (h : c.UpToDate) {m : Machine κ ρ}
    (hm : m.display = c.machine.display ∨ m.display.refreshRequested = true) :
    ({ c with machine := m } : Console κ ρ (Recorded σ)).UpToDate := by
  intro hclean
  rcases hm with hsame | hrequested
  · rw [hsame] at hclean ⊢
    exact h hclean
  · rw [hrequested] at hclean
    cases hclean

variable [Screen σ]

/-- How a paint of the present picture ends: the reason if it fails. -/
def paintFailure (c : Console κ ρ (Recorded σ)) : Option String :=
  (Screen.paint c.screen.screen c.machine.display.picture).2

/-- A display that asks for no paint is not painted. -/
theorem refresh_of_unrequested {c : Console κ ρ σ}
    (h : c.machine.display.refreshRequested = false) : c.refresh = (none, c) := by
  simp only [refresh, Display.refresh, h, Bool.false_eq_true, ↓reduceIte]

/-- A paint that succeeds takes the request back and changes nothing else of the machine. -/
theorem refresh_of_painted {c : Console κ ρ σ} (h : c.machine.display.refreshRequested = true)
    {painted : σ} (hp : Screen.paint c.screen c.machine.display.picture = (painted, none)) :
    c.refresh =
      (none, ⟨{ c.machine with display := c.machine.display.markPainted }, painted⟩) := by
  simp only [refresh, Display.refresh, h, hp, ↓reduceIte]

/-- A paint that fails gives its reason and leaves the machine as it was. -/
theorem refresh_of_failed {c : Console κ ρ σ} (h : c.machine.display.refreshRequested = true)
    {failed : σ} {reason : String}
    (hp : Screen.paint c.screen c.machine.display.picture = (failed, some reason)) :
    c.refresh = (some (.device reason), ⟨c.machine, failed⟩) := by
  simp only [refresh, Display.refresh, h, hp, ↓reduceIte]

/-- A refresh hands the picture to the screen if the display asks for it, and only then. -/
theorem refresh_screen (c : Console κ ρ σ) :
    c.refresh.2.screen =
      if c.machine.display.refreshRequested then
        (Screen.paint c.screen c.machine.display.picture).1
      else c.screen := by
  cases h : c.machine.display.refreshRequested with
  | false =>
    rw [refresh_of_unrequested h]
    rfl
  | true =>
    rcases hp : Screen.paint c.screen c.machine.display.picture with ⟨after, _ | reason⟩
    · rw [refresh_of_painted h hp]
      rfl
    · rw [refresh_of_failed h hp]
      rfl

/-- Keeping a record changes neither how a refresh ends nor what it leaves. -/
theorem refresh_unrecorded (c : Console κ ρ (Recorded σ)) :
    c.unrecorded.refresh = (c.refresh.1, c.refresh.2.unrecorded) := by
  cases h : c.machine.display.refreshRequested with
  | false =>
    have hplain : c.unrecorded.machine.display.refreshRequested = false := h
    rw [refresh_of_unrequested h, refresh_of_unrequested hplain]
  | true =>
    have hplain : c.unrecorded.machine.display.refreshRequested = true := h
    rcases hp : Screen.paint c.screen.screen c.machine.display.picture with ⟨after, _ | reason⟩
    · rw [refresh_of_painted h (Recorded.paint_of hp), refresh_of_painted hplain hp]
      rfl
    · rw [refresh_of_failed h (Recorded.paint_of hp), refresh_of_failed hplain hp]
      rfl

theorem UpToDate.refresh {c : Console κ ρ (Recorded σ)} (h : c.UpToDate) :
    c.refresh.2.UpToDate := by
  cases hrequested : c.machine.display.refreshRequested with
  | false =>
    rw [refresh_of_unrequested hrequested]
    exact h
  | true =>
    intro hclean
    rcases hp : Screen.paint c.screen.screen c.machine.display.picture with ⟨after, _ | reason⟩
    · rw [refresh_of_painted hrequested (Recorded.paint_of hp), Recorded.shown_concat]
      rfl
    · -- the request stands, so there is nothing to show
      rw [refresh_of_failed hrequested (Recorded.paint_of hp), hrequested] at hclean
      cases hclean

variable [Keypad κ] [RandomSource ρ]

theorem UpToDate.serve {c : Console κ ρ (Recorded σ)} (h : c.UpToDate) (r : Request) :
    (c.serve r).UpToDate := by
  cases r with
  | act action => exact h.of_requests (c.machine.act_requests action)
  | execute instruction decoded => exact h.of_requests (c.machine.execute_requests instruction)
  | refresh => exact h.refresh

/-- The run lemma. -/
theorem UpToDate.after {c : Console κ ρ (Recorded σ)} (h : c.UpToDate) (requests : List Request) :
    (c.after requests).UpToDate := by
  induction requests generalizing c with
  | nil => exact h
  | cons r rest ih => exact ih (h.serve r)

theorem serve_unrecorded (c : Console κ ρ (Recorded σ)) (r : Request) :
    (c.serve r).unrecorded = c.unrecorded.serve r := by
  cases r with
  | act action => rfl
  | execute instruction decoded => rfl
  | refresh => exact (congrArg Prod.snd (refresh_unrecorded c)).symm

theorem after_unrecorded (c : Console κ ρ (Recorded σ)) (requests : List Request) :
    (c.after requests).unrecorded = c.unrecorded.after requests := by
  induction requests generalizing c with
  | nil => rfl
  | cons r rest ih =>
    show ((c.serve r).after rest).unrecorded = (c.unrecorded.serve r).after rest
    rw [ih, serve_unrecorded]

/-- **The screen is never stale.** Take whatever was asked of a fresh machine in front of any
screen, whose paints are recorded; without the record everything is the same. If the display asks
for no paint, some paint has succeeded and the last one that did was of the present picture. A
refresh paints if and only if it is asked to, and then the present picture. A paint that fails gives
the refresh its reason and leaves the machine as it was, request and picture included, so the next
refresh paints again. -/
theorem screen_is_never_stale (keys : κ) (random : ρ) (screen : σ) (requests : List Request) :
    let c := (Console.mk (Machine.fresh keys random) (Recorded.start screen)).after requests
    let display := c.machine.display
    c.unrecorded = (Console.mk (Machine.fresh keys random) screen).after requests ∧
    (display.refreshRequested = false → c.screen.shown = some display.picture) ∧
    (display.refreshRequested = false → c.refresh = (none, c)) ∧
    (display.refreshRequested = true →
      c.refresh.2.screen.attempts = c.screen.attempts ++ [⟨display.picture, c.paintFailure⟩] ∧
      (c.paintFailure = none → c.refresh.1 = none ∧
        c.refresh.2.machine.display = { display with refreshRequested := false }) ∧
      (∀ reason, c.paintFailure = some reason → c.refresh.1 = some (.device reason) ∧
        c.refresh.2.machine = c.machine ∧
        c.refresh.2.refresh.2.screen.attempts =
          c.refresh.2.screen.attempts ++ [⟨display.picture, c.refresh.2.paintFailure⟩])) := by
  intro c display
  refine ⟨after_unrecorded _ requests, (upToDate_fresh keys random screen).after requests,
    refresh_of_unrequested, fun hrequested => ⟨?_, fun hpainted => ?_, fun reason hfailed => ?_⟩⟩
  · rw [refresh_screen, if_pos hrequested]
    rfl
  · have hp : Screen.paint c.screen.screen display.picture =
        ((Screen.paint c.screen.screen display.picture).1, none) := Prod.ext rfl hpainted
    rw [refresh_of_painted hrequested (Recorded.paint_of hp)]
    exact ⟨rfl, rfl⟩
  · have hp : Screen.paint c.screen.screen display.picture =
        ((Screen.paint c.screen.screen display.picture).1, some reason) := Prod.ext rfl hfailed
    rw [refresh_of_failed hrequested (Recorded.paint_of hp)]
    refine ⟨rfl, rfl, ?_⟩
    rw [refresh_screen, if_pos hrequested]
    rfl

/-- A paint that fails is asked for again by the next refresh. -/
example :
    let keys : ScriptedKeys := ⟨[], [], 0, none⟩
    let random : ScriptedRandom := ⟨[], 0⟩
    let screen : CountingScreen := ⟨0, some 1⟩
    let c := (Console.mk (Machine.fresh keys random) (Recorded.start screen)).after
      [.refresh, .refresh]
    c.screen.attempts.map (·.failure) = [some "screen is gone", some "screen is gone"] := by
  decide +kernel

end Console

end Chip8
