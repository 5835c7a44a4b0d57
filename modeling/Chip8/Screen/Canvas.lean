import Chip8.Screen.Basic

/-!
# Canvases

How a picture becomes coloured cells of a terminal. The pixels are handed over as two lists of
points, lit and unlit, in a plane whose vertical axis points up, so row `y` lies at height `-y`. A
canvas covers that part of the plane cell by cell, inside a titled frame. `lit` and `unlit` share
out the picture: `mem_points_iff` says which pixel is on which list.
-/

namespace Chip8

/-- The colours of a cell; `reset` is the terminal's own. -/
inductive Colour where
  | reset
  | black
  | white
  deriving DecidableEq, Repr

def Colour.name : Colour → String
  | reset => "reset"
  | black => "black"
  | white => "white"

structure Cell where
  shown : Char
  foreground : Colour
  background : Colour
  deriving DecidableEq, Repr

def Cell.blank : Cell :=
  ⟨' ', .reset, .reset⟩

namespace Framebuffer

/-- Where the pixel in column `x` of row `y` lies in the plane. -/
def planePoint (x y : Nat) : Int × Int :=
  (x, -(y : Int))

/-- The points of the pixels that are lit, or that are not. A pixel's place in the flat list tells
its column and its row. -/
def points (fb : Framebuffer) (lit : Bool) : List (Int × Int) :=
  (fb.pixels.zipIdx.filter fun (byte, _) => (byte != 0) == lit).map fun (_, i) =>
    planePoint (i % width) (i / width)

def xBounds : Int × Int :=
  (0, (width : Int) - 1)

def yBounds : Int × Int :=
  (1 - (height : Int), 0)

/-- The positions are exactly the columns and rows of the picture. -/
theorem mem_positions {x y : Nat} : (x, y) ∈ positions ↔ x < width ∧ y < height := by
  simp only [positions, List.mem_flatMap, List.mem_map, List.mem_range, Prod.mk.injEq]
  constructor
  · rintro ⟨b, hb, a, ha, rfl, rfl⟩
    exact ⟨ha, hb⟩
  · rintro ⟨hx, hy⟩
    exact ⟨y, hy, x, hx, rfl, rfl⟩

/-- The pixel in a column of a row is found at its place in the flat list. -/
theorem getElem?_pixels (fb : Framebuffer) {x y : Nat} (hx : x < width) :
    fb.pixels[y * width + x]? = fb.pixel? x y := by
  unfold pixels pixel?
  by_cases hy : y < height
  · have hcell := cell_lt hx hy
    simp [hx, hy, hcell]
  · have hout : width * height ≤ y * width + x := by
      simp only [width, height] at hx hy ⊢
      omega
    simp [hy, hout]

/-- A pixel's point is on the list of its kind, and on no other. -/
theorem mem_points_iff (fb : Framebuffer) (lit : Bool) (x y : Nat) :
    planePoint x y ∈ fb.points lit ↔ (x < width ∧ y < height) ∧ fb.isLit x y = lit := by
  have hkind (hx : x < width) : (∃ byte, fb.pixels[y * width + x]? = some byte ∧
      ((byte != 0) == lit) = true) ↔ (x < width ∧ y < height) ∧ fb.isLit x y = lit := by
    rw [fb.getElem?_pixels hx, isLit, pixel?]
    by_cases hy : y < height <;> simp [hx, hy]
  simp only [points, List.mem_map, List.mem_filter, List.mem_zipIdx_iff_getElem?, planePoint,
    Prod.mk.injEq, Prod.exists]
  constructor
  · rintro ⟨byte, i, ⟨hbyte, hlit⟩, hx, hy⟩
    have hcolumn : i % width < width := Nat.mod_lt i (by decide)
    obtain rfl : i % width = x := by omega
    obtain rfl : i / width = y := by omega
    have hplace : i / width * width + i % width = i := Nat.div_add_mod' i width
    rw [← hplace] at hbyte
    exact (hkind hcolumn).mp ⟨byte, hbyte, hlit⟩
  · intro h
    obtain ⟨byte, hbyte, hlit⟩ := (hkind h.1.1).mpr h
    have hcolumn : (y * width + x) % width = x := by
      rw [Nat.mul_add_mod_self_right, Nat.mod_eq_of_lt h.1.1]
    have hrow : (y * width + x) / width = y := by
      have hx := h.1.1
      simp only [width] at hx ⊢
      omega
    exact ⟨byte, y * width + x, ⟨hbyte, hlit⟩, by rw [hcolumn], by rw [hrow]⟩

end Framebuffer

/-- The coloured points of a picture; `none` where nothing was plotted. -/
structure Canvas where
  /-- The rows from the top. -/
  rows : Vector (Vector (Option Colour) Framebuffer.width) Framebuffer.height
  deriving DecidableEq, Repr

namespace Canvas

def blank : Canvas :=
  ⟨.replicate _ (.replicate _ none)⟩

/-- The colour plotted in a column of a row, if any. -/
def colour? (c : Canvas) (column row : Nat) : Option Colour :=
  match c.rows[row]? with
  | some cells => (cells[column]?).join
  | none => none

/-- Colours the cell of one point; a point outside the bounds leaves no mark. -/
def plot (c : Canvas) (colour : Colour) (point : Int × Int) : Canvas :=
  let column := point.1.toNat
  let row := (-point.2).toNat
  if h : (0 ≤ point.1 ∧ column < Framebuffer.width) ∧ point.2 ≤ 0 ∧ row < Framebuffer.height then
    ⟨c.rows.set row (c.rows[row].set column (some colour))⟩
  else
    c

def plotAll (c : Canvas) (colour : Colour) (points : List (Int × Int)) : Canvas :=
  points.foldl (fun c point => c.plot colour point) c

/-- A picture on a canvas: unlit pixels black, lit ones white. -/
def ofPicture (fb : Framebuffer) : Canvas :=
  (blank.plotAll .black (fb.points false)).plotAll .white (fb.points true)

end Canvas

end Chip8
