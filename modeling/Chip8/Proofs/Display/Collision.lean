import Chip8.Proofs.Checked.Drawing
import Chip8.Proofs.Display.Landing
import Chip8.Screen.Canvas

/-!
# Collisions, and how many pixels are lit

A sprite is drawn bit by bit, and each toggle tells whether it put a lit pixel out. No bit of a
sprite lands where another one did, so what a toggle finds is what was there before the whole
sprite: the sprite reports a hit exactly if it lands on a lit pixel (`draw_hit_iff`). In a picture
of dark and lit pixels a toggle lights a pixel or puts it out, which makes the lit ones easy to
count (`litCount_draw`).
-/

namespace Chip8

namespace Framebuffer

theorem toggle_hit_iff (fb : Framebuffer) (x y : Nat) :
    (fb.toggle x y).1 = true ↔ fb.pixel? x y = some pixelOn := by
  unfold toggle pixel?
  split
  · have hput (b : UInt8) : (b != 0 && b ^^^ pixelOn == 0) = true ↔ b = pixelOn := by
      rw [Bool.and_eq_true, bne_iff_ne, beq_iff_eq, UInt8.xor_eq_zero_iff]
      refine ⟨fun h => h.2, ?_⟩
      rintro rfl
      exact ⟨by decide, rfl⟩
    simp only [hput, Option.some.injEq]
  · exact ⟨nofun, nofun⟩

theorem drawBits_hit_cons (fb : Framebuffer) (x y : Nat) (bit : Bool) (rest : List Bool) :
    (fb.drawBits x y (bit :: rest)).1 =
      ((bit && (fb.toggle x y).1) ||
        ((if bit then fb.toggle x y else (false, fb)).2.drawBits (x + 1) y rest).1) := by
  cases bit <;> rfl

/-- Bits laid out from column `x` on hit if a set one is over a lit pixel. -/
theorem drawBits_hit_iff (fb : Framebuffer) (x y : Nat) (bits : List Bool) :
    (fb.drawBits x y bits).1 = true ↔
      ∃ c, x ≤ c ∧ bits[c - x]? = some true ∧ fb.pixel? c y = some pixelOn := by
  induction bits generalizing fb x with
  | nil =>
    refine ⟨nofun, ?_⟩
    rintro ⟨c, -, hbit, -⟩
    cases hbit
  | cons bit rest ih =>
    -- to the right of the first bit everything is as it was
    have hright (c : Nat) (hc : x + 1 ≤ c) :
        (if bit then fb.toggle x y else (false, fb)).2.pixel? c y = fb.pixel? c y := by
      cases bit with
      | true =>
        have hne : c ≠ x := by omega
        simp only [↓reduceIte, pixel?_toggle_flipped, hne, false_and, map_flipped_zero]
      | false => rfl
    rw [drawBits_hit_cons, Bool.or_eq_true, Bool.and_eq_true, toggle_hit_iff, ih]
    constructor
    · rintro (⟨hbit, hlit⟩ | ⟨c, hc, hbit, hlit⟩)
      · refine ⟨x, Nat.le_refl x, ?_, hlit⟩
        rw [Nat.sub_self, hbit]
        rfl
      · have hnext : c - x = c - (x + 1) + 1 := by omega
        rw [hright c hc] at hlit
        refine ⟨c, by omega, ?_, hlit⟩
        rw [hnext, List.getElem?_cons_succ]
        exact hbit
    · rintro ⟨c, hc, hbit, hlit⟩
      rcases Nat.eq_or_lt_of_le hc with rfl | hlt
      · rw [Nat.sub_self, List.getElem?_cons_zero, Option.some.injEq] at hbit
        exact .inl ⟨hbit, hlit⟩
      · have hnext : c - x = c - (x + 1) + 1 := by omega
        rw [hnext, List.getElem?_cons_succ] at hbit
        refine .inr ⟨c, hlt, hbit, ?_⟩
        rw [hright c hlt]
        exact hlit

theorem drawRow_hit_iff (fb : Framebuffer) (x y : Nat) (row : UInt8) :
    (fb.drawRow x y row).1 = true ↔
      ∃ c, ((x ≤ c ∧ c < x + 8) ∧ row.toNat.testBit (7 - (c - x)) = true) ∧
        fb.pixel? c y = some pixelOn := by
  rw [drawRow, drawBits_hit_iff]
  refine exists_congr fun c => ?_
  rw [rowBits_getElem?]
  constructor
  · rintro ⟨hleft, ⟨hbit, hset⟩, hlit⟩
    exact ⟨⟨⟨hleft, by omega⟩, hset⟩, hlit⟩
  · rintro ⟨⟨⟨hleft, hright⟩, hset⟩, hlit⟩
    exact ⟨hleft, ⟨by omega, hset⟩, hlit⟩

/-- **A drawn sprite reports a hit exactly if it lands on a pixel that was lit.** -/
theorem draw_hit_iff (fb : Framebuffer) (x y : Nat) (sprite : List UInt8) :
    (fb.draw x y sprite).1 = true ↔
      ∃ c r, Lands x y sprite c r ∧ fb.pixel? c r = some pixelOn := by
  induction sprite generalizing fb y with
  | nil =>
    refine ⟨nofun, ?_⟩
    rintro ⟨c, r, hlands, -⟩
    exact absurd hlands (not_lands_nil x y c r)
  | cons row rest ih =>
    -- the rows below are as they were
    have hbelow (c r : Nat) (hr : y + 1 ≤ r) :
        (fb.drawRow x y row).2.pixel? c r = fb.pixel? c r := by
      have hne : ¬ (r = y ∧ (x ≤ c ∧ c < x + 8) ∧ row.toNat.testBit (7 - (c - x)) = true) := by
        rintro ⟨rfl, -⟩
        omega
      rw [pixel?_drawRow, if_neg hne, map_flipped_zero]
    have hcons : (fb.draw x y (row :: rest)).1 =
        ((fb.drawRow x y row).1 || ((fb.drawRow x y row).2.draw x (y + 1) rest).1) := rfl
    rw [hcons, Bool.or_eq_true, drawRow_hit_iff, ih]
    simp only [lands_cons]
    constructor
    · rintro (⟨c, ⟨hcolumn, hset⟩, hlit⟩ | ⟨c, r, hlands, hlit⟩)
      · exact ⟨c, y, .inl ⟨rfl, hcolumn, hset⟩, hlit⟩
      · rw [hbelow c r hlands.2.1.1] at hlit
        exact ⟨c, r, .inr hlands, hlit⟩
    · rintro ⟨c, r, ⟨rfl, hcolumn, hset⟩ | hlands, hlit⟩
      · exact .inl ⟨c, ⟨hcolumn, hset⟩, hlit⟩
      · refine .inr ⟨c, r, hlands, ?_⟩
        rw [hbelow c r hlands.2.1.1]
        exact hlit

/-- What a pixel of a binary picture can be. -/
theorem Binary.pixel? {fb : Framebuffer} (h : fb.Binary) {x y : Nat} {b : UInt8}
    (hb : fb.pixel? x y = some b) : b = 0 ∨ b = pixelOn := by
  unfold Framebuffer.pixel? at hb
  split at hb
  · cases hb
    exact h _ (by simp [pixels])
  · cases hb

theorem Binary.isLit_iff {fb : Framebuffer} (h : fb.Binary) (x y : Nat) :
    fb.isLit x y = true ↔ fb.pixel? x y = some pixelOn := by
  unfold isLit
  cases hp : fb.pixel? x y with
  | none => exact ⟨nofun, nofun⟩
  | some b =>
    rcases h.pixel? hp with rfl | rfl
    · exact ⟨nofun, nofun⟩
    · exact ⟨fun _ => rfl, fun _ => rfl⟩

/-- Where a sprite lands, what was lit is dark and what was dark is lit. -/
theorem Binary.isLit_draw {fb : Framebuffer} (h : fb.Binary) (x y : Nat) (sprite : List UInt8)
    {c r : Nat} (hin : c < width ∧ r < height) :
    (fb.draw x y sprite).2.isLit c r = (fb.isLit c r ^^ decide (Lands x y sprite c r)) := by
  obtain ⟨b, hb⟩ : ∃ b, fb.pixel? c r = some b := ⟨_, dif_pos hin⟩
  have hdraw := pixel?_draw fb x y sprite c r
  rw [hb, Option.map_some] at hdraw
  rw [isLit, isLit, hdraw, hb, Option.any_some, Option.any_some]
  by_cases hlands : Lands x y sprite c r
  · rcases h.pixel? hb with rfl | rfl
    · simp only [hlands, ↓reduceIte, decide_true]
      rfl
    · simp only [hlands, ↓reduceIte, decide_true]
      rfl
  · rw [if_neg hlands, decide_eq_false hlands, Bool.xor_false]
    rfl

/-- Of two kinds, those of one kind only are counted once, and those of both not at all. -/
theorem countP_xor {α : Type} (p q : α → Bool) (l : List α) :
    l.countP (fun a => p a ^^ q a) + 2 * l.countP (fun a => p a && q a) =
      l.countP p + l.countP q := by
  induction l with
  | nil => rfl
  | cons a rest ih =>
    simp only [List.countP_cons]
    cases p a <;> cases q a <;> grind

/-- **A sprite lights as many pixels as it lands on, less two for each that was lit.** -/
theorem Binary.litCount_draw {fb : Framebuffer} (h : fb.Binary) (x y : Nat) (sprite : List UInt8) :
    let landed := positions.filter fun (c, r) => decide (Lands x y sprite c r)
    (fb.draw x y sprite).2.litCount + 2 * landed.countP (fun (c, r) => fb.isLit c r) =
      fb.litCount + landed.length := by
  intro landed
  have hafter : (fb.draw x y sprite).2.litCount =
      positions.countP fun (c, r) => fb.isLit c r ^^ decide (Lands x y sprite c r) := by
    refine List.countP_congr fun ⟨c, r⟩ hmem => ?_
    simp only [h.isLit_draw x y sprite (mem_positions.mp hmem)]
  rw [hafter, litCount, List.countP_filter, ← List.countP_eq_length_filter]
  exact countP_xor _ _ positions

end Framebuffer

end Chip8
