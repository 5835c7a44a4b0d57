import Mathlib.Data.Nat.Bitwise
import Chip8.Display.Basic

/-!
# Where the bits of a sprite land

Drawing goes through a sprite row by row and bit by bit. Seen from one pixel all of that comes to a
single question: whether the sprite has a set bit that lands there (`Lands`). If so the pixel is
toggled once, otherwise it is left alone. `pixel?_draw` says this for every position, and beyond it
no proof has to look at the order of the loops, at the edges or at the layout of the cells.
-/

namespace Chip8

namespace Framebuffer

/-- A pixel byte that has been toggled a number of times. -/
def flipped (n : Nat) (b : UInt8) : UInt8 :=
  if n % 2 = 1 then b ^^^ pixelOn else b

/-- Two toggles take each other back, so that numbers of toggles add up. -/
theorem flipped_flipped (m n : Nat) (b : UInt8) : flipped m (flipped n b) = flipped (n + m) b := by
  have hback : b ^^^ pixelOn ^^^ pixelOn = b := by
    rw [UInt8.xor_assoc, UInt8.xor_self, UInt8.xor_zero]
  unfold flipped
  rcases Nat.mod_two_eq_zero_or_one m with hm | hm <;>
    rcases Nat.mod_two_eq_zero_or_one n with hn | hn
  · rw [if_neg (by omega), if_neg (by omega), if_neg (by omega)]
  · rw [if_neg (by omega), if_pos hn, if_pos (by omega)]
  · rw [if_pos hm, if_neg (by omega), if_pos (by omega)]
  · rw [if_pos hm, if_pos hn, if_neg (by omega), hback]

theorem map_flipped_zero (o : Option UInt8) : o.map (flipped 0) = o := by
  cases o <;> rfl

theorem map_flipped_map (m n : Nat) (o : Option UInt8) :
    (o.map (flipped n)).map (flipped m) = o.map (flipped (n + m)) := by
  cases o with
  | none => rfl
  | some b => exact congrArg some (flipped_flipped m n b)

/-- Of two things that exclude each other the one that is the case counts. -/
theorem count_or {p q : Prop} [Decidable p] [Decidable q] (h : ¬ (p ∧ q)) :
    (if p then 1 else 0) + (if q then 1 else 0) = if p ∨ q then 1 else 0 := by
  by_cases hp : p
  · have hq : ¬ q := fun hq => h ⟨hp, hq⟩
    rw [if_pos hp, if_neg hq, if_pos (.inl hp)]
  · by_cases hq : q
    · rw [if_neg hp, if_pos hq, if_pos (.inr hq)]
    · rw [if_neg hp, if_neg hq, if_neg (not_or.mpr ⟨hp, hq⟩)]

/-- Whether a sprite with its top left corner in column `px` of row `py` has a set bit that lands in
column `x` of row `y`. Rows count downwards, and the leftmost bit of a row is its highest. -/
def Lands (px py : Nat) (sprite : List UInt8) (x y : Nat) : Prop :=
  (px ≤ x ∧ x < px + 8) ∧ (py ≤ y ∧ y < py + sprite.length) ∧
    (sprite.getD (y - py) 0).toNat.testBit (7 - (x - px)) = true

instance (px py : Nat) (sprite : List UInt8) (x y : Nat) : Decidable (Lands px py sprite x y) :=
  inferInstanceAs (Decidable (_ ∧ _ ∧ _))

/-- `pixel?_toggle`, as a number of toggles. -/
theorem pixel?_toggle_flipped (fb : Framebuffer) (x y c r : Nat) :
    (fb.toggle x y).2.pixel? c r =
      (fb.pixel? c r).map (flipped (if c = x ∧ r = y then 1 else 0)) := by
  rw [pixel?_toggle]
  by_cases hat : c = x ∧ r = y
  · simp only [hat, and_self, ↓reduceIte]
    rfl
  · simp only [hat, ↓reduceIte]
    rfl

/-- Bits laid out from column `x` on toggle the pixels under the set ones, each of them once. -/
theorem pixel?_drawBits (fb : Framebuffer) (x y : Nat) (bits : List Bool) (c r : Nat) :
    (fb.drawBits x y bits).2.pixel? c r =
      (fb.pixel? c r).map
        (flipped (if r = y ∧ x ≤ c ∧ bits[c - x]? = some true then 1 else 0)) := by
  induction bits generalizing fb x with
  | nil =>
    simp only [List.getElem?_nil, reduceCtorEq, and_false, ↓reduceIte, map_flipped_zero]
    rfl
  | cons bit rest ih =>
    have hfirst : (if bit then fb.toggle x y else (false, fb)).2.pixel? c r =
        (fb.pixel? c r).map (flipped (if bit = true ∧ c = x ∧ r = y then 1 else 0)) := by
      cases bit with
      | true => simp only [true_and, ↓reduceIte, pixel?_toggle_flipped]
      | false => simp only [Bool.false_eq_true, false_and, ↓reduceIte, map_flipped_zero]
    -- a column is under the first bit, under a later one, or to the left of all
    have hunder : ((bit = true ∧ c = x ∧ r = y) ∨
        (r = y ∧ x + 1 ≤ c ∧ rest[c - (x + 1)]? = some true)) ↔
        r = y ∧ x ≤ c ∧ (bit :: rest)[c - x]? = some true := by
      rcases Nat.lt_trichotomy c x with hleft | rfl | hright
      · omega
      · simp [and_comm]
      · have hnext : c - x = c - (x + 1) + 1 := by omega
        rw [hnext, List.getElem?_cons_succ]
        constructor
        · rintro (⟨-, hc, -⟩ | ⟨hr, hc, hset⟩)
          · omega
          · exact ⟨hr, by omega, hset⟩
        · rintro ⟨hr, hc, hset⟩
          exact .inr ⟨hr, by omega, hset⟩
    have hrest := ih (if bit then fb.toggle x y else (false, fb)).2 (x + 1)
    rw [hfirst, map_flipped_map, count_or (by omega)] at hrest
    simp only [hunder] at hrest
    exact hrest

/-- Masking a byte with one bit leaves nothing exactly if the byte does not have it. -/
theorem masked_eq_testBit (row mask : UInt8) (i : Nat) (h : mask.toNat = 2 ^ i) :
    (row &&& mask != 0) = row.toNat.testBit i := by
  have hand : (row &&& mask).toNat = (row.toNat.testBit i).toNat * 2 ^ i := by
    rw [UInt8.toNat_and, h, Nat.and_two_pow]
  have hpos : 0 < 2 ^ i := Nat.two_pow_pos i
  rw [Bool.eq_iff_iff, bne_iff_ne, ne_eq, ← UInt8.toNat_inj, hand]
  cases row.toNat.testBit i with
  | true => simp
  | false => simp

/-- The bits of a row from the left are those of its byte from the top. -/
theorem rowBits_eq (row : UInt8) :
    rowBits row = (List.range 8).map fun k => row.toNat.testBit (7 - k) := by
  simp only [rowBits, List.map_cons, List.map_nil, masked_eq_testBit row 0x80 7 rfl,
    masked_eq_testBit row 0x40 6 rfl, masked_eq_testBit row 0x20 5 rfl,
    masked_eq_testBit row 0x10 4 rfl, masked_eq_testBit row 0x08 3 rfl,
    masked_eq_testBit row 0x04 2 rfl, masked_eq_testBit row 0x02 1 rfl,
    masked_eq_testBit row 0x01 0 rfl]
  rfl

theorem rowBits_getElem? (row : UInt8) (k : Nat) :
    (rowBits row)[k]? = some true ↔ k < 8 ∧ row.toNat.testBit (7 - k) = true := by
  rw [rowBits_eq, List.getElem?_map]
  by_cases hk : k < 8
  · simp [hk]
  · simp [hk]

/-- A sprite row in row `y` of the picture. -/
theorem pixel?_drawRow (fb : Framebuffer) (x y : Nat) (row : UInt8) (c r : Nat) :
    (fb.drawRow x y row).2.pixel? c r =
      (fb.pixel? c r).map
        (flipped (if r = y ∧ (x ≤ c ∧ c < x + 8) ∧ row.toNat.testBit (7 - (c - x)) = true
          then 1 else 0)) := by
  have hbit : (r = y ∧ x ≤ c ∧ (rowBits row)[c - x]? = some true) ↔
      r = y ∧ (x ≤ c ∧ c < x + 8) ∧ row.toNat.testBit (7 - (c - x)) = true := by
    rw [rowBits_getElem?]
    constructor
    · rintro ⟨hr, hleft, hright, hset⟩
      exact ⟨hr, ⟨hleft, by omega⟩, hset⟩
    · rintro ⟨hr, ⟨hleft, hright⟩, hset⟩
      exact ⟨hr, hleft, by omega, hset⟩
  rw [drawRow, pixel?_drawBits]
  simp only [hbit]

/-- A sprite lands with its first row or with the rows below. -/
theorem lands_cons {x y : Nat} {row : UInt8} {rest : List UInt8} {c r : Nat} :
    Lands x y (row :: rest) c r ↔
      (r = y ∧ (x ≤ c ∧ c < x + 8) ∧ row.toNat.testBit (7 - (c - x)) = true) ∨
        Lands x (y + 1) rest c r := by
  unfold Lands
  rw [List.length_cons]
  rcases Nat.lt_trichotomy r y with habove | rfl | hbelow
  · omega
  · rw [Nat.sub_self, List.getD_cons_zero]
    constructor
    · rintro ⟨hcolumn, -, hset⟩
      exact .inl ⟨rfl, hcolumn, hset⟩
    · rintro (⟨-, hcolumn, hset⟩ | ⟨-, hrows, -⟩)
      · exact ⟨hcolumn, ⟨by omega, by omega⟩, hset⟩
      · omega
  · have hnext : r - y = r - (y + 1) + 1 := by omega
    rw [hnext, List.getD_cons_succ]
    constructor
    · rintro ⟨hcolumn, hrows, hset⟩
      exact .inr ⟨hcolumn, ⟨by omega, by omega⟩, hset⟩
    · rintro (⟨hr, -, -⟩ | ⟨hcolumn, hrows, hset⟩)
      · omega
      · exact ⟨hcolumn, ⟨by omega, by omega⟩, hset⟩

theorem not_lands_nil (x y c r : Nat) : ¬ Lands x y [] c r := by
  rintro ⟨-, hrows, -⟩
  rw [List.length_nil] at hrows
  omega

/-- **A drawn sprite toggles the pixels it lands on, once, and no others.** -/
theorem pixel?_draw (fb : Framebuffer) (x y : Nat) (sprite : List UInt8) (c r : Nat) :
    (fb.draw x y sprite).2.pixel? c r =
      (fb.pixel? c r).map (flipped (if Lands x y sprite c r then 1 else 0)) := by
  induction sprite generalizing fb y with
  | nil =>
    rw [if_neg (not_lands_nil x y c r), map_flipped_zero]
    rfl
  | cons row rest ih =>
    have honce : ¬ ((r = y ∧ (x ≤ c ∧ c < x + 8) ∧ row.toNat.testBit (7 - (c - x)) = true) ∧
        Lands x (y + 1) rest c r) := by
      rintro ⟨⟨hr, -⟩, -, hrows, -⟩
      omega
    have hrest := ih (fb.drawRow x y row).2 (y + 1)
    rw [pixel?_drawRow, map_flipped_map, count_or honce] at hrest
    simp only [lands_cons]
    exact hrest

/-- Two pictures with the same pixels are the same. -/
theorem eq_of_pixel? {a b : Framebuffer} (h : ∀ x y, a.pixel? x y = b.pixel? x y) : a = b := by
  obtain ⟨cells⟩ := a
  obtain ⟨cells'⟩ := b
  congr 1
  apply Vector.ext
  intro i hi
  have hx : i % width < width := Nat.mod_lt _ (by decide)
  have hy : i / width < height := Nat.div_lt_of_lt_mul hi
  have hat : i / width * width + i % width = i := by
    rw [Nat.mul_comm]
    exact Nat.div_add_mod i width
  have hpixel := h (i % width) (i / width)
  simpa only [pixel?, hx, hy, and_self, ↓reduceDIte, hat, Option.some.injEq] using hpixel

/-- Drawing a sprite where it was just drawn takes it back. -/
theorem draw_draw (fb : Framebuffer) (x y : Nat) (sprite : List UInt8) :
    ((fb.draw x y sprite).2.draw x y sprite).2 = fb := by
  apply eq_of_pixel?
  intro c r
  rw [pixel?_draw, pixel?_draw, map_flipped_map]
  by_cases h : Lands x y sprite c r
  · rw [if_pos h]
    exact map_flipped_zero _
  · rw [if_neg h]
    exact map_flipped_zero _

end Framebuffer

end Chip8
