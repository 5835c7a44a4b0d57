/-!
# Display modes

The picture sizes a program might ask for. Only the standard one exists; the enhanced one is known
so that it can be refused by name.
-/

namespace Chip8

inductive DisplayMode where
  /-- 64 by 32 pixels. -/
  | standard
  /-- 128 by 64 pixels. -/
  | enhanced
  deriving Repr, DecidableEq, Inhabited

namespace DisplayMode

def name : DisplayMode → String
  | standard => "Standard"
  | enhanced => "Enhanced"

def resolution : DisplayMode → Nat × Nat
  | standard => (64, 32)
  | enhanced => (128, 64)

end DisplayMode

end Chip8
