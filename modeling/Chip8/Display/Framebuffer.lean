/-!
# The framebuffer

64 by 32 pixels, one byte each, row after row. A zero byte is an unlit pixel and any other a lit
one; drawing only ever makes bytes 0 or `pixelOn` of a blank picture. A sprite row is eight bits,
the highest the leftmost pixel, and what lies beyond the right or the bottom edge is clipped.
`pixel?_toggle` says what one sprite bit does to every pixel.
-/

namespace Chip8

namespace Framebuffer

abbrev width : Nat := 64

abbrev height : Nat := 32

end Framebuffer

structure Framebuffer where
  /-- The pixels, row after row from the top and each row from the left. -/
  cells : Vector UInt8 (Framebuffer.width * Framebuffer.height)
  deriving DecidableEq, Repr

namespace Framebuffer

/-- The byte of a lit pixel. A byte is toggled by an exclusive or with it. -/
def pixelOn : UInt8 := 0xff

def blank : Framebuffer :=
  ⟨.replicate (width * height) 0⟩

theorem cell_lt {x y : Nat} (hx : x < width) (hy : y < height) :
    y * width + x < width * height := by
  simp only [width, height] at hx hy ⊢
  omega

/-- The byte of one pixel, if the position is in the picture. -/
def pixel? (fb : Framebuffer) (x y : Nat) : Option UInt8 :=
  if h : x < width ∧ y < height then
    have hcell := cell_lt h.1 h.2
    some fb.cells[y * width + x]
  else
    none

/-- Whether the pixel in column `x` of row `y` is lit; outside the picture none is. -/
def isLit (fb : Framebuffer) (x y : Nat) : Bool :=
  (fb.pixel? x y).any (· != 0)

/-- Toggles the pixel in column `x` of row `y`, and tells whether that put a lit one out. Beyond
the edges there is nothing to toggle. -/
def toggle (fb : Framebuffer) (x y : Nat) : Bool × Framebuffer :=
  if h : x < width ∧ y < height then
    have hcell := cell_lt h.1 h.2
    let before := fb.cells[y * width + x]
    let after := before ^^^ pixelOn
    (before != 0 && after == 0, ⟨fb.cells.set (y * width + x) after⟩)
  else
    (false, fb)

/-- Toggles the pixels under the set bits of a sprite row that starts in column `x`, and tells
whether a lit one was put out. -/
def drawBits (fb : Framebuffer) (x y : Nat) : List Bool → Bool × Framebuffer
  | [] => (false, fb)
  | bit :: rest =>
    let (hit, drawn) := if bit then fb.toggle x y else (false, fb)
    let (hitBeyond, final) := drawn.drawBits (x + 1) y rest
    (hit || hitBeyond, final)

/-- The bits of a sprite row, the leftmost pixel first. -/
def rowBits (row : UInt8) : List Bool :=
  [0x80, 0x40, 0x20, 0x10, 0x08, 0x04, 0x02, 0x01].map fun mask => row &&& mask != 0

/-- Toggles the pixels of one sprite row, and tells whether a lit one was put out. -/
def drawRow (fb : Framebuffer) (x y : Nat) (row : UInt8) : Bool × Framebuffer :=
  fb.drawBits x y (rowBits row)

/-- Toggles the pixels of a sprite whose top left corner is in column `x` of row `y`, and tells
whether a lit one was put out. -/
def draw (fb : Framebuffer) (x y : Nat) : List UInt8 → Bool × Framebuffer
  | [] => (false, fb)
  | row :: rest =>
    let (hit, drawn) := fb.drawRow x y row
    let (hitBelow, final) := drawn.draw x (y + 1) rest
    (hit || hitBelow, final)

/-- The positions of the picture as column and row, row after row. -/
def positions : List (Nat × Nat) :=
  (List.range height).flatMap fun y => (List.range width).map fun x => (x, y)

def pixels (fb : Framebuffer) : List UInt8 :=
  fb.cells.toList

def litCount (fb : Framebuffer) : Nat :=
  positions.countP fun (x, y) => fb.isLit x y

theorem pixel?_blank {x y : Nat} (hx : x < width) (hy : y < height) :
    blank.pixel? x y = some 0 := by
  simp [pixel?, blank, hx, hy]

/-- Two positions of the picture with one cell are the same. -/
theorem cell_inj {x y c r : Nat} (hx : x < width) (hc : c < width)
    (h : y * width + x = r * width + c) : x = c ∧ y = r := by
  simp only [width] at hx hc h
  omega

/-- One toggle changes the byte of its own pixel and of no other. -/
theorem pixel?_toggle (fb : Framebuffer) (x y c r : Nat) :
    (fb.toggle x y).2.pixel? c r =
      (fb.pixel? c r).map fun b => if c = x ∧ r = y then b ^^^ pixelOn else b := by
  unfold toggle
  split
  · rename_i h
    unfold pixel?
    by_cases hin : c < width ∧ r < height
    · by_cases hat : c = x ∧ r = y
      · obtain ⟨rfl, rfl⟩ := hat
        simp [h]
      · have hne : y * width + x ≠ r * width + c := by
          intro he
          obtain ⟨rfl, rfl⟩ := cell_inj h.1 hin.1 he
          exact hat ⟨rfl, rfl⟩
        simp [hin, hat, Vector.getElem_set_ne, hne]
    · simp [hin]
  · rename_i h
    cases hp : fb.pixel? c r with
    | none => rfl
    | some b =>
      have hne : ¬ (c = x ∧ r = y) := by
        rintro ⟨rfl, rfl⟩
        simp [pixel?, h] at hp
      simp [hne]

end Framebuffer

end Chip8
