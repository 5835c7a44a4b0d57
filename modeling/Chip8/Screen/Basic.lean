import Chip8.Machine.Basic

/-!
# Screens

What a picture is painted on. A screen is asked to paint only if the picture has changed since the
last successful paint; a paint that fails leaves the request standing, so the next refresh tries
again.
-/

namespace Chip8

class Screen (σ : Type) where
  /-- Paints a picture: the screen afterwards, and the reason if that failed. -/
  paint : σ → Framebuffer → σ × Option String

/-- A machine in front of a screen. -/
structure Console (κ ρ σ : Type) where
  machine : Machine κ ρ
  screen : σ

/-- Paints a display on a screen if it asks for it: the screen and the display afterwards, and the
fault if painting failed. -/
def Display.refresh {σ : Type} [Screen σ] (d : Display) (screen : σ) :
    Option Fault × σ × Display :=
  if d.refreshRequested then
    match Screen.paint screen d.picture with
    | (painted, none) => (none, painted, d.markPainted)
    | (failed, some reason) => (some (.device reason), failed, d)
  else
    (none, screen, d)

def Console.refresh {κ ρ σ : Type} [Screen σ] (c : Console κ ρ σ) :
    Option Fault × Console κ ρ σ :=
  let (fault, screen, display) := c.machine.display.refresh c.screen
  (fault, { machine := { c.machine with display := display }, screen := screen })

/-- A screen that shows nothing and counts its paints. It may be set to fail: a paint that would be
the `failAt`-th fails, and is not counted, so every later one fails too. -/
structure CountingScreen where
  /-- How many paints succeeded. -/
  painted : Nat := 0
  /-- Which paint, counted from 1, fails. -/
  failAt : Option Nat := none
  deriving DecidableEq, Repr

instance : Screen CountingScreen where
  paint s _ :=
    if s.failAt = some (s.painted + 1) then (s, some "screen is gone")
    else ({ s with painted := s.painted + 1 }, none)

end Chip8
