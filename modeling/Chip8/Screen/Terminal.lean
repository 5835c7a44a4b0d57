import Chip8.Screen.Canvas

/-!
# Terminal screens

A picture on a terminal: a titled frame in the top left corner with one cell for each pixel, shown
on the alternate screen with the cursor hidden until the screen is put back. A pixel is a lower
half block, in white if it is lit and in black if it is not.
-/

namespace Chip8

structure TerminalScreen where
  canvas : Option Canvas
  restored : Bool
  deriving DecidableEq, Repr

namespace TerminalScreen

/-- A screen that has been set up and shows nothing yet. -/
def start : TerminalScreen :=
  ⟨none, false⟩

def restore (s : TerminalScreen) : TerminalScreen :=
  { s with restored := true }

def cursorVisible (s : TerminalScreen) : Bool :=
  s.restored

def alternateShown (s : TerminalScreen) : Bool :=
  !s.restored

instance : Screen TerminalScreen where
  paint s picture := ({ s with canvas := some (.ofPicture picture) }, none)

/-- Columns of the frame and its contents. -/
def frameWidth : Nat := Framebuffer.width + 2

/-- Rows of the frame and its contents. -/
def frameHeight : Nat := Framebuffer.height + 2

def title : List Char := ['C', 'H', 'I', 'P', '-', '8']

/-- The character of the frame in a column of a row. -/
def frameCharacter (column row : Nat) : Char :=
  if row = 0 then
    if column = 0 then '┌'
    else if column + 1 = frameWidth then '┐'
    else title.getD (column - 1) '─'
  else if row + 1 = frameHeight then
    if column = 0 then '└'
    else if column + 1 = frameWidth then '┘'
    else '─'
  else
    '│'

def isInterior (column row : Nat) : Bool :=
  1 ≤ column && column ≤ Framebuffer.width && 1 ≤ row && row ≤ Framebuffer.height

/-- What a canvas in its frame shows in a column of a row of the terminal. -/
def framed (canvas : Canvas) (column row : Nat) : Cell :=
  if column < frameWidth ∧ row < frameHeight then
    if isInterior column row then
      match canvas.colour? (column - 1) (row - 1) with
      | some colour => ⟨'▄', colour, .reset⟩
      | none => .blank
    else
      ⟨frameCharacter column row, .reset, .black⟩
  else
    .blank

/-- What the terminal shows in a column of a row. -/
def cell (s : TerminalScreen) (column row : Nat) : Cell :=
  match s.canvas with
  | some canvas => framed canvas column row
  | none => .blank

/-- Switches to the alternate screen, hides the cursor and clears. -/
def setUpSequence : String :=
  "\x1b[?1049h\x1b[?25l\x1b[2J"

/-- Shows the cursor and leaves the alternate screen. -/
def restoreSequence : String :=
  "\x1b[?25h\x1b[?1049l"

/-- The control sequence that selects the colours of a cell. -/
def colourSequence (c : Cell) : String :=
  let foreground := match c.foreground with
    | .reset => "39"
    | .black => "30"
    | .white => "97"
  let background := match c.background with
    | .reset => "49"
    | .black => "40"
    | .white => "107"
  "\x1b[" ++ foreground ++ ";" ++ background ++ "m"

/-- One row of the frame and its contents, with colours. -/
def rowSequence (s : TerminalScreen) (row : Nat) : String :=
  (List.range frameWidth).foldl
    (fun text column =>
      let c := s.cell column row
      (text ++ colourSequence c).push c.shown)
    ""

/-- What has to be sent to a terminal for it to show the screen. -/
def showSequence (s : TerminalScreen) : String :=
  (List.range frameHeight).foldl
    (fun text row => text ++ s.rowSequence row ++ "\x1b[0m\x0d\n")
    "\x1b[H"

end TerminalScreen

end Chip8
