import Chip8.Display.Basic
import Chip8.Proofs.Checked.Access

/-!
# Drawing with every check made

A sprite is drawn pixel by pixel, and each pixel has its coordinates added up, its edges tested and
its index computed and looked up. The edges are tested before the index is computed, which is why no
lookup misses: `toggle?_eq` needs exactly what has been tested. `Binary` is what drawing keeps: a
pixel is dark or lit, and nothing else.
-/

namespace Chip8

namespace Framebuffer

/-- `toggle` in the picture, with the index of the pixel computed and looked up. -/
def toggle? (fb : Framebuffer) (x y : Nat) : Option (Bool × Framebuffer) := do
  let start ← mul? USize.size y width
  let cell ← add? USize.size start x
  let before ← fb.cells[cell]?
  let after := before ^^^ pixelOn
  let cells ← setAt? fb.cells cell after
  some (before != 0 && after == 0, ⟨cells⟩)

/-- One bit of a sprite row: an unset one, and one beyond the right edge, is passed over. -/
def drawBit? (fb : Framebuffer) (x y : Nat) (bit : Bool) : Option (Bool × Framebuffer) :=
  if x < width ∧ bit then fb.toggle? x y else some (false, fb)

/-- The bits of a sprite row from `offset` on. -/
def drawBits? (fb : Framebuffer) (left y offset : Nat) :
    List Bool → Option (Bool × Framebuffer)
  | [] => some (false, fb)
  | bit :: rest => do
    let x ← add? USize.size left offset
    let (hit, drawn) ← fb.drawBit? x y bit
    let (hitBeyond, final) ← drawn.drawBits? left y (offset + 1) rest
    some (hit || hitBeyond, final)

/-- One row of a sprite: one beyond the bottom edge is passed over. -/
def drawRow? (fb : Framebuffer) (left y : Nat) (row : UInt8) : Option (Bool × Framebuffer) :=
  if y < height then fb.drawBits? left y 0 (rowBits row) else some (false, fb)

/-- The rows of a sprite from `offset` on. -/
def draw? (fb : Framebuffer) (left top offset : Nat) : List UInt8 → Option (Bool × Framebuffer)
  | [] => some (false, fb)
  | row :: rest => do
    let y ← add? USize.size top offset
    let (hit, drawn) ← fb.drawRow? left y row
    let (hitBelow, final) ← drawn.draw? left top (offset + 1) rest
    some (hit || hitBelow, final)

theorem toggle?_eq (fb : Framebuffer) {x y : Nat} (hx : x < width) (hy : y < height) :
    fb.toggle? x y = some (fb.toggle x y) := by
  have hcell := cell_lt hx hy
  have hstart : y * width < USize.size := lt_usize (by simp only [width, height] at *; omega)
  have hsum : y * width + x < USize.size := lt_usize (by simp only [width, height] at *; omega)
  simp only [toggle?, toggle, mul?_eq hstart, add?_eq hsum, setAt?_eq _ hcell, hx, hy, and_self,
    ↓reduceDIte, Option.bind_eq_bind, Option.bind_some, Vector.getElem?_eq_getElem hcell]

/-- Beyond the edges a toggle does nothing. -/
theorem toggle_outside (fb : Framebuffer) {x y : Nat} (h : ¬ (x < width ∧ y < height)) :
    fb.toggle x y = (false, fb) :=
  dif_neg h

/-- A row below the bottom edge draws nothing. -/
theorem drawBits_below (fb : Framebuffer) (x : Nat) {y : Nat} (h : height ≤ y) (bits : List Bool) :
    fb.drawBits x y bits = (false, fb) := by
  induction bits generalizing x with
  | nil => rfl
  | cons bit rest ih =>
    have htoggle : fb.toggle x y = (false, fb) :=
      toggle_outside fb fun hin => Nat.not_lt.mpr h hin.2
    simp only [drawBits, htoggle, ite_self, ih, Bool.or_self]

theorem drawBit?_eq (fb : Framebuffer) (x : Nat) {y : Nat} (hy : y < height) (bit : Bool) :
    fb.drawBit? x y bit = some (if bit then fb.toggle x y else (false, fb)) := by
  unfold drawBit?
  by_cases hx : x < width
  · cases bit with
    | true => simp only [hx, and_self, ↓reduceIte, toggle?_eq fb hx hy]
    | false => simp only [Bool.false_eq_true, and_false, ↓reduceIte]
  · have htoggle : fb.toggle x y = (false, fb) := toggle_outside fb fun hin => hx hin.1
    simp only [hx, false_and, ↓reduceIte, htoggle, ite_self]

theorem drawBits?_eq (fb : Framebuffer) (left offset : Nat) {y : Nat} (hy : y < height)
    (bits : List Bool) (h : left + offset + bits.length < 4294967296) :
    fb.drawBits? left y offset bits = some (fb.drawBits (left + offset) y bits) := by
  induction bits generalizing fb offset with
  | nil => rfl
  | cons bit rest ih =>
    rw [List.length_cons] at h
    have hx : left + offset < USize.size := lt_usize (by omega)
    simp only [drawBits?, drawBits, add?_eq hx, drawBit?_eq fb _ hy, Option.bind_eq_bind,
      Option.bind_some, ih _ (offset + 1) (by omega)]
    rfl

theorem drawRow?_eq (fb : Framebuffer) {left : Nat} (h : left + 8 < 4294967296) (y : Nat)
    (row : UInt8) : fb.drawRow? left y row = some (fb.drawRow left y row) := by
  unfold drawRow? drawRow
  split
  · rename_i hy
    exact drawBits?_eq fb left 0 hy (rowBits row) h
  · rename_i hy
    rw [drawBits_below fb left (Nat.not_lt.mp hy)]

/-- A sprite is drawn with all its checks if its coordinates are small. -/
theorem draw?_eq (fb : Framebuffer) (left top offset : Nat) (sprite : List UInt8)
    (hleft : left + 8 < 4294967296) (htop : top + offset + sprite.length < 4294967296) :
    fb.draw? left top offset sprite = some (fb.draw left (top + offset) sprite) := by
  induction sprite generalizing fb offset with
  | nil => rfl
  | cons row rest ih =>
    rw [List.length_cons] at htop
    have hy : top + offset < USize.size := lt_usize (by omega)
    simp only [draw?, draw, add?_eq hy, drawRow?_eq fb hleft, Option.bind_eq_bind,
      Option.bind_some, ih _ (offset + 1) (by omega)]
    rfl

/-- Every pixel is dark or lit, and nothing else. -/
def Binary (fb : Framebuffer) : Prop :=
  ∀ p ∈ fb.pixels, p = 0 ∨ p = pixelOn

theorem binary_blank : blank.Binary := by
  intro p hp
  have hzero : p = 0 := by
    simp only [pixels, blank, Vector.toList_replicate] at hp
    exact List.eq_of_mem_replicate hp
  exact .inl hzero

theorem Binary.toggle {fb : Framebuffer} (h : fb.Binary) (x y : Nat) :
    (fb.toggle x y).2.Binary := by
  unfold Framebuffer.toggle
  split
  · rename_i hin
    have hcell := cell_lt hin.1 hin.2
    intro p hp
    simp only [pixels, Vector.toList_set] at hp
    rcases List.mem_or_eq_of_mem_set hp with hold | rfl
    · exact h p hold
    · have hbefore : fb.cells[y * width + x] ∈ fb.pixels := by simp [pixels]
      rcases h _ hbefore with hdark | hlit
      · rw [hdark]
        exact .inr (by decide)
      · rw [hlit]
        exact .inl (by decide)
  · exact h

theorem Binary.drawBits {fb : Framebuffer} (h : fb.Binary) (x y : Nat) (bits : List Bool) :
    (fb.drawBits x y bits).2.Binary := by
  induction bits generalizing fb x with
  | nil => exact h
  | cons bit rest ih =>
    cases bit with
    | true => exact ih (h.toggle x y) (x + 1)
    | false => exact ih h (x + 1)

theorem Binary.draw {fb : Framebuffer} (h : fb.Binary) (x y : Nat) (sprite : List UInt8) :
    (fb.draw x y sprite).2.Binary := by
  induction sprite generalizing fb y with
  | nil => exact h
  | cons row rest ih => exact ih (h.drawBits x y (rowBits row)) (y + 1)

end Framebuffer

namespace Display

/-- `draw`, with every check made. -/
def draw? (d : Display) (x y : Nat) (sprite : List UInt8) : Option (Bool × Display) := do
  let (hit, picture) ← d.picture.draw? x y 0 sprite
  some (hit, ⟨picture, true⟩)

/-- Two registers are a place where a sprite can be drawn. -/
theorem draw?_eq (d : Display) (x y : UInt8) (sprite : List UInt8) (h : sprite.length ≤ 15) :
    d.draw? x.toNat y.toNat sprite = some (d.draw x.toNat y.toNat sprite) := by
  have hx := x.toNat_lt
  have hy := y.toNat_lt
  have hdraw := Framebuffer.draw?_eq d.picture x.toNat y.toNat 0 sprite (by omega) (by omega)
  simp only [draw?, draw, hdraw, Option.bind_eq_bind, Option.bind_some]
  rfl

end Display

end Chip8
