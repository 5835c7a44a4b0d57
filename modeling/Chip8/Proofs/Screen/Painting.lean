import Mathlib.Data.List.Nodup
import Chip8.Screen.Terminal

/-!
# A painted picture is the picture

A picture is handed over as two lists of points, and together they hold the point of every pixel
once: a pixel's place in the flat list and its column and row determine each other
(`planePoint_place_inj`). What turns points into cells is not looked into. It is only relied on
that a point within the bounds colours the one cell that it names (`ColoursCells`), and that is
enough for the cells to show the picture, whatever they showed before.
-/

namespace Chip8

namespace Framebuffer

/-- Whether a point lies within the bounds of the part of the plane that is shown. -/
def InBounds (point : Int × Int) : Prop :=
  (xBounds.1 ≤ point.1 ∧ point.1 ≤ xBounds.2) ∧ yBounds.1 ≤ point.2 ∧ point.2 ≤ yBounds.2

theorem planePoint_inj {x y c r : Nat} : planePoint c r = planePoint x y ↔ c = x ∧ r = y := by
  simp only [planePoint, Prod.mk.injEq]
  omega

theorem inBounds_planePoint {x y : Nat} : InBounds (planePoint x y) ↔ x < width ∧ y < height := by
  simp only [InBounds, planePoint, xBounds, yBounds, width, height]
  omega

/-- Two places of the flat list with one column and one row are the same. -/
theorem planePoint_place_inj :
    Function.Injective fun i => planePoint (i % width) (i / width) := by
  intro i j h
  obtain ⟨hcolumn, hrow⟩ := planePoint_inj.mp h
  simp only [width] at hcolumn hrow
  omega

/-- The points of all pixels, in the order of the flat list. -/
def allPoints (fb : Framebuffer) : List (Int × Int) :=
  fb.pixels.zipIdx.map fun (_, i) => planePoint (i % width) (i / width)

theorem nodup_allPoints (fb : Framebuffer) : fb.allPoints.Nodup := by
  have hplaces : fb.allPoints =
      (List.range' 0 fb.pixels.length).map fun i => planePoint (i % width) (i / width) := by
    rw [← List.zipIdx_map_snd 0 fb.pixels, List.map_map]
    rfl
  rw [hplaces]
  exact List.Nodup.map planePoint_place_inj List.nodup_range'

/-- The two lists share out the points of all pixels. -/
theorem points_perm (fb : Framebuffer) :
    (fb.points true ++ fb.points false).Perm fb.allPoints := by
  have hunlit : (fun cell : UInt8 × Nat => (cell.1 != 0) == false) =
      fun cell => !((cell.1 != 0) == true) := by
    funext cell
    cases cell.1 != 0 <;> rfl
  have hshared := List.filter_append_perm (fun cell : UInt8 × Nat => (cell.1 != 0) == true)
    fb.pixels.zipIdx
  rw [← hunlit] at hshared
  have hpoints := hshared.map fun cell => planePoint (cell.2 % width) (cell.2 / width)
  rw [List.map_append] at hpoints
  exact hpoints

/-- A listed point is that of a pixel. -/
theorem exists_of_mem_points {fb : Framebuffer} {lit : Bool} {point : Int × Int}
    (h : point ∈ fb.points lit) :
    ∃ x y, x < width ∧ y < height ∧ point = planePoint x y := by
  obtain ⟨⟨byte, i⟩, -, rfl⟩ := List.mem_map.mp h
  obtain ⟨⟨hx, hy⟩, -⟩ := (fb.mem_points_iff lit _ _).mp h
  exact ⟨_, _, hx, hy, rfl⟩

/-- The point of a pixel is listed once. -/
theorem count_points {x y : Nat} (fb : Framebuffer) (hx : x < width) (hy : y < height) :
    (fb.points true ++ fb.points false).count (planePoint x y) = 1 := by
  apply List.count_eq_one_of_mem ((fb.points_perm.nodup_iff).mpr fb.nodup_allPoints)
  rw [List.mem_append, mem_points_iff, mem_points_iff]
  cases fb.isLit x y with
  | true => exact .inl ⟨⟨hx, hy⟩, rfl⟩
  | false => exact .inr ⟨⟨hx, hy⟩, rfl⟩

end Framebuffer

open Framebuffer

/-- What is relied on of a surface that points are plotted on: a point within the bounds colours the
cell in its column and row, and no other. -/
structure ColoursCells {γ : Type} (plot : γ → Colour → Int × Int → γ)
    (colourAt : γ → Nat → Nat → Option Colour) : Prop where
  colourAt_plot : ∀ (surface : γ) (colour : Colour) (x y : Nat), InBounds (planePoint x y) →
    ∀ column row, column < width → row < height →
      colourAt (plot surface colour (planePoint x y)) column row =
        if column = x ∧ row = y then some colour else colourAt surface column row

/-- A surface after a picture has been plotted on it: the unlit pixels black, then the lit ones
white. -/
def plotPicture {γ : Type} (plot : γ → Colour → Int × Int → γ) (surface : γ) (fb : Framebuffer) :
    γ :=
  let unlit := (fb.points false).foldl (fun s point => plot s .black point) surface
  (fb.points true).foldl (fun s point => plot s .white point) unlit

section Plotting

variable {γ : Type} {plot : γ → Colour → Int × Int → γ} {colourAt : γ → Nat → Nat → Option Colour}

/-- The cells of plotted points have their colour, and the others keep theirs. -/
theorem ColoursCells.colourAt_foldl (h : ColoursCells plot colourAt) (colour : Colour)
    {points : List (Int × Int)}
    (hpoints : ∀ point ∈ points, ∃ x y, x < width ∧ y < height ∧ point = planePoint x y)
    (surface : γ) {column row : Nat} (hcolumn : column < width) (hrow : row < height) :
    colourAt (points.foldl (fun s point => plot s colour point) surface) column row =
      if planePoint column row ∈ points then some colour else colourAt surface column row := by
  induction points generalizing surface with
  | nil => rfl
  | cons point rest ih =>
    obtain ⟨x, y, hx, hy, rfl⟩ := hpoints point List.mem_cons_self
    have hplot := h.colourAt_plot surface colour x y (inBounds_planePoint.mpr ⟨hx, hy⟩) column row
      hcolumn hrow
    rw [List.foldl_cons, ih fun p hp => hpoints p (List.mem_cons_of_mem _ hp), hplot]
    by_cases hmem : planePoint column row ∈ rest
    · rw [if_pos hmem, if_pos (List.mem_cons_of_mem _ hmem)]
    · simp only [hmem, List.mem_cons, planePoint_inj, or_false, ↓reduceIte]

/-- On a plotted picture every cell has the colour of its pixel, whatever was there before. -/
theorem ColoursCells.colourAt_plotPicture (h : ColoursCells plot colourAt) (surface : γ)
    (fb : Framebuffer) {x y : Nat} (hx : x < width) (hy : y < height) :
    colourAt (plotPicture plot surface fb) x y =
      some (if fb.isLit x y then .white else .black) := by
  unfold plotPicture
  rw [h.colourAt_foldl .white (fun _ => exists_of_mem_points) _ hx hy,
    h.colourAt_foldl .black (fun _ => exists_of_mem_points) surface hx hy]
  simp only [mem_points_iff, hx, hy, true_and]
  cases fb.isLit x y <;> rfl

end Plotting

namespace Canvas

/-- A canvas colours its cells in that way. -/
theorem coloursCells : ColoursCells plot colour? where
  colourAt_plot c colour x y hin column row hcolumn hrow := by
    obtain ⟨hx, hy⟩ := inBounds_planePoint.mp hin
    have hpoint : (planePoint x y).1.toNat = x ∧ (-(planePoint x y).2).toNat = y := by
      simp only [planePoint]
      omega
    have hplot : (0 ≤ (planePoint x y).1 ∧ (planePoint x y).1.toNat < width) ∧
        (planePoint x y).2 ≤ 0 ∧ (-(planePoint x y).2).toNat < height := by
      simp only [planePoint]
      omega
    simp only [plot, hplot, and_self, ↓reduceDIte, colour?]
    by_cases hr : row = y
    · by_cases hc : column = x
      · simp [hpoint, hr, hc, hx, hy]
      · have hne : x ≠ column := fun he => hc he.symm
        simp [hpoint, hr, hc, hy, hne, hcolumn]
    · have hne : y ≠ row := fun he => hr he.symm
      simp [hpoint, hr, hrow, hne, hcolumn]

end Canvas

namespace TerminalScreen

/-- **A painted picture is the picture.** For every picture, the lists of lit and of unlit points
together hold the point of every pixel once, nothing else, and nothing out of bounds; a pixel's
point is on the list of lit ones exactly if it is lit. So on every surface that points within the
bounds colour as they should, a cell is white if its pixel is lit and black if not, whatever was
painted there before. A terminal shows it so in the cells within its frame. -/
theorem painted_picture_is_picture {γ : Type} {plot : γ → Colour → Int × Int → γ}
    {colourAt : γ → Nat → Nat → Option Colour} (h : ColoursCells plot colourAt)
    (fb : Framebuffer) :
    (∀ x y, x < width → y < height →
      (fb.points true ++ fb.points false).count (planePoint x y) = 1 ∧
        (planePoint x y ∈ fb.points true ↔ fb.isLit x y = true)) ∧
    (∀ point ∈ fb.points true ++ fb.points false,
      (∃ x y, x < width ∧ y < height ∧ point = planePoint x y) ∧ InBounds point) ∧
    (∀ (before : γ) x y, x < width → y < height →
      colourAt (plotPicture plot before fb) x y =
        some (if fb.isLit x y then .white else .black)) ∧
    ∀ (before : TerminalScreen) x y, x < width → y < height →
      (Screen.paint before fb).1.cell (x + 1) (y + 1) =
        ⟨'▄', if fb.isLit x y then .white else .black, .reset⟩ := by
  refine ⟨fun x y hx hy => ⟨fb.count_points hx hy, ?_⟩, fun point hpoint => ?_,
    fun before x y hx hy => h.colourAt_plotPicture before fb hx hy, fun before x y hx hy => ?_⟩
  · rw [mem_points_iff]
    exact and_iff_right ⟨hx, hy⟩
  · have hpixel : ∃ x y, x < width ∧ y < height ∧ point = planePoint x y :=
      (List.mem_append.mp hpoint).elim exists_of_mem_points exists_of_mem_points
    obtain ⟨x, y, hx, hy, rfl⟩ := hpixel
    exact ⟨⟨x, y, hx, hy, rfl⟩, inBounds_planePoint.mpr ⟨hx, hy⟩⟩
  · have hcolour : (Canvas.ofPicture fb).colour? x y = _ :=
      Canvas.coloursCells.colourAt_plotPicture .blank fb hx hy
    have hframe : x + 1 < frameWidth ∧ y + 1 < frameHeight := by
      simp only [frameWidth, frameHeight]
      omega
    have hinterior : isInterior (x + 1) (y + 1) = true := by
      simp [isInterior]
      omega
    simp only [Screen.paint, cell, framed, hframe, hinterior, and_self, ↓reduceIte, hcolour,
      Nat.add_sub_cancel]

/-- One lit pixel, painted over its mirror image. -/
theorem painted_picture_is_picture_over_another :
    let fb := (Framebuffer.blank.toggle 3 2).2
    let before := Canvas.ofPicture (Framebuffer.blank.toggle 2 3).2
    ColoursCells Canvas.plot Canvas.colour? ∧
      (plotPicture Canvas.plot before fb).colour? 3 2 = some .white ∧
      (plotPicture Canvas.plot before fb).colour? 2 3 = some .black ∧
      fb.points true = [(3, -2)] := by
  intro fb before
  obtain ⟨-, -, hcells, -⟩ := painted_picture_is_picture Canvas.coloursCells fb
  have hlit : fb.isLit 3 2 = true ∧ fb.isLit 2 3 = false := by decide +kernel
  refine ⟨Canvas.coloursCells, ?_, ?_, by decide +kernel⟩
  · rw [hcells before 3 2 (by decide) (by decide), hlit.1]
    rfl
  · rw [hcells before 2 3 (by decide) (by decide), hlit.2]
    rfl

end TerminalScreen

end Chip8
