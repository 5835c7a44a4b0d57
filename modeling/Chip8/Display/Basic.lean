import Chip8.Display.Framebuffer
import Chip8.Fault

/-!
# The display

The picture with a note of whether it has to be painted again. Drawing and clearing ask for a
paint; only a successful paint takes the request back.
-/

namespace Chip8

/-- The picture, and whether it has changed since it was last painted. -/
structure Display where
  picture : Framebuffer
  refreshRequested : Bool
  deriving DecidableEq, Repr

namespace Display

/-- A blank picture that has not been painted yet. -/
def fresh : Display :=
  ⟨.blank, true⟩

/-- The only mode there is. -/
def mode (_ : Display) : DisplayMode :=
  .standard

/-- Asks for a mode: the standard one is in force already, the enhanced one does not exist. -/
def setMode (d : Display) (mode : DisplayMode) : Except Fault Display :=
  match mode with
  | .standard => .ok d
  | .enhanced => .error (.unsupportedMode mode)

def clear (_ : Display) : Display :=
  ⟨.blank, true⟩

/-- Draws a sprite, and tells whether it met a lit pixel. -/
def draw (d : Display) (x y : Nat) (sprite : List UInt8) : Bool × Display :=
  let (hit, picture) := d.picture.draw x y sprite
  (hit, ⟨picture, true⟩)

def markPainted (d : Display) : Display :=
  { d with refreshRequested := false }

end Display

end Chip8
