import Mathlib.Data.List.DropRight
import Chip8.Proofs.Display.Landing

/-!
# Pictures as parities of what was drawn

A display is cleared, drawn on, marked as painted and asked for a mode, in any order. What it shows
is told by the history of these calls alone: a pixel is lit if the number of sprites that landed on
it since the last clear (`landings`) is odd. So sprites do not wrap around the edges, the order of
drawing is of no concern, and a sprite drawn twice is gone.
-/

namespace Chip8

/-- What may be asked of a display. -/
inductive DisplayCall where
  | clear
  | draw (x y : Nat) (sprite : List UInt8)
  | markPainted
  | setMode (mode : DisplayMode)
  deriving DecidableEq, Repr

namespace DisplayCall

def isClear : DisplayCall → Bool
  | .clear => true
  | _ => false

/-- Whether a call draws a sprite with a set bit that lands on a pixel. -/
def landsOn (x y : Nat) : DisplayCall → Bool
  | .draw px py sprite => decide (Framebuffer.Lands px py sprite x y)
  | _ => false

/-- The calls since the last clear, or all of them if there was none. -/
def sinceClear (calls : List DisplayCall) : List DisplayCall :=
  calls.rtakeWhile fun call => !call.isClear

/-- How many of the sprites drawn since the last clear have a set bit that lands on a pixel. -/
def landings (calls : List DisplayCall) (x y : Nat) : Nat :=
  (sinceClear calls).countP (landsOn x y)

/-- The last call starts the count anew or adds to it. -/
theorem landings_concat (calls : List DisplayCall) (call : DisplayCall) (x y : Nat) :
    landings (calls ++ [call]) x y =
      if call.isClear then 0 else landings calls x y + if call.landsOn x y then 1 else 0 := by
  rw [landings, sinceClear, List.rtakeWhile_concat]
  cases call.isClear with
  | true => rfl
  | false =>
    simp only [Bool.not_false, ↓reduceIte, List.countP_append, List.countP_singleton]
    rfl

theorem isClear_eq_false {call : DisplayCall} (h : call ≠ .clear) : call.isClear = false := by
  cases call with
  | clear => exact absurd rfl h
  | _ => rfl

theorem any_isClear_of_clearless {calls : List DisplayCall}
    (h : ∀ call ∈ calls, call ≠ .clear) : calls.any isClear = false := by
  rw [List.any_eq_false]
  intro call hmem
  rw [isClear_eq_false (h call hmem)]
  exact Bool.false_ne_true

/-- Without a clear every sprite counts. -/
theorem landings_of_clearless {calls : List DisplayCall} (h : ∀ call ∈ calls, call ≠ .clear)
    (x y : Nat) : landings calls x y = calls.countP (landsOn x y) := by
  have hall : ∀ call ∈ calls, (!call.isClear) = true := by
    intro call hmem
    rw [isClear_eq_false (h call hmem)]
    rfl
  rw [landings, sinceClear, List.rtakeWhile_eq_self_iff.mpr hall]

end DisplayCall

namespace Display

open Framebuffer DisplayCall

/-- The display after a call. A mode that is refused leaves it as it was. -/
def apply (d : Display) : DisplayCall → Display
  | .clear => d.clear
  | .draw x y sprite => (d.draw x y sprite).2
  | .markPainted => d.markPainted
  | .setMode mode =>
    match d.setMode mode with
    | .ok changed => changed
    | .error _ => d

/-- The display after a sequence of calls. -/
def afterCalls (d : Display) (calls : List DisplayCall) : Display :=
  calls.foldl apply d

/-- A clear blanks a pixel, a sprite that lands on it toggles it, and nothing else touches it. -/
theorem pixel?_apply (d : Display) (call : DisplayCall) (x y : Nat) :
    (d.apply call).picture.pixel? x y =
      if call.isClear then Framebuffer.blank.pixel? x y
      else (d.picture.pixel? x y).map (flipped (if call.landsOn x y then 1 else 0)) := by
  cases call with
  | clear => rfl
  | draw px py sprite =>
    have hpixel := pixel?_draw d.picture px py sprite x y
    simp only [isClear, landsOn, Bool.false_eq_true, ↓reduceIte, decide_eq_true_eq]
    exact hpixel
  | markPainted => exact (map_flipped_zero _).symm
  | setMode mode =>
    have hsame : d.apply (.setMode mode) = d := by cases mode <;> rfl
    rw [hsame]
    exact (map_flipped_zero _).symm

/-- The run lemma: the calls since the last clear have toggled a pixel as often as a sprite of
theirs landed on it, from dark if there was a clear. -/
theorem pixel?_afterCalls (d : Display) (calls : List DisplayCall) (x y : Nat) :
    (d.afterCalls calls).picture.pixel? x y =
      ((if calls.any isClear then Framebuffer.blank else d.picture).pixel? x y).map
        (flipped (landings calls x y)) := by
  induction calls using List.reverseRecOn with
  | nil => exact (map_flipped_zero _).symm
  | append_singleton calls call ih =>
    have hlast : d.afterCalls (calls ++ [call]) = (d.afterCalls calls).apply call := by
      rw [afterCalls, List.foldl_append]
      rfl
    have hany : (calls ++ [call]).any isClear = (calls.any isClear || call.isClear) := by
      rw [List.any_append, List.any_cons, List.any_nil, Bool.or_false]
    rw [hlast, pixel?_apply, ih, landings_concat, hany]
    cases call.isClear with
    | true => simp only [↓reduceIte, Bool.or_true, map_flipped_zero]
    | false => simp only [Bool.false_eq_true, ↓reduceIte, Bool.or_false, map_flipped_map]

theorem pixel?_of_blank (x y : Nat) :
    Framebuffer.blank.pixel? x y = if x < width ∧ y < height then some 0 else none := by
  split
  · rename_i h
    exact Framebuffer.pixel?_blank h.1 h.2
  · rename_i h
    exact dif_neg h

/-- **A picture is the parity of what was drawn on it.** After any calls, from a display's start, a
pixel is lit if the number of sprites that landed on it since the last clear is odd, and dark if it
is even. A sprite does not touch what lies outside its eight columns and its rows, so it wraps
around no edge. Calls between two clears may come in any order, and a sprite drawn twice in a row
is gone. -/
theorem picture_is_parity (calls : List DisplayCall) :
    let d := fresh.afterCalls calls
    (∀ x y, d.picture.pixel? x y =
      if x < 64 ∧ y < 32 then some (if landings calls x y % 2 = 1 then 0xff else 0) else none) ∧
    (∀ px py sprite x y, ¬ ((px ≤ x ∧ x < px + 8) ∧ py ≤ y ∧ y < py + sprite.length) →
      (d.draw px py sprite).2.picture.pixel? x y = d.picture.pixel? x y) ∧
    (∀ segment reordered : List DisplayCall, (∀ call ∈ segment, call ≠ .clear) →
      segment.Perm reordered →
      (d.afterCalls segment).picture = (d.afterCalls reordered).picture) ∧
    (∀ px py sprite, ((d.draw px py sprite).2.draw px py sprite).2.picture = d.picture) := by
  intro d
  refine ⟨fun x y => ?_, fun px py sprite x y hout => ?_, fun segment reordered hclear hperm => ?_,
    fun px py sprite => draw_draw d.picture px py sprite⟩
  · have hblank : (if calls.any isClear then Framebuffer.blank else fresh.picture) =
        Framebuffer.blank := ite_self _
    rw [pixel?_afterCalls, hblank, pixel?_of_blank]
    by_cases hin : x < width ∧ y < height
    · rw [if_pos hin, if_pos hin]
      rfl
    · rw [if_neg hin, if_neg hin]
      rfl
  · have hmiss : ¬ Lands px py sprite x y := fun h => hout ⟨h.1, h.2.1⟩
    have hpixel := pixel?_draw d.picture px py sprite x y
    rw [if_neg hmiss, map_flipped_zero] at hpixel
    exact hpixel
  · have hclear' : ∀ call ∈ reordered, call ≠ .clear := fun call hmem =>
      hclear call (hperm.mem_iff.mpr hmem)
    apply eq_of_pixel?
    intro x y
    rw [pixel?_afterCalls, pixel?_afterCalls, any_isClear_of_clearless hclear,
      any_isClear_of_clearless hclear', landings_of_clearless hclear,
      landings_of_clearless hclear', hperm.countP_eq]

/-- A row that overlaps another by half, and is cut off by the right edge. -/
example :
    let d := fresh.afterCalls [.draw 56 0 [0xff], .draw 60 0 [0xff]]
    [59, 60, 63].map (d.picture.isLit · 0) = [true, false, false] ∧
      d.picture.isLit 0 1 = false := by
  decide +kernel

end Display

end Chip8
