import Chip8.Machine.Execute

/-!
# What a shift leaves in the registers

A shift puts one bit of `VX` into the flag and only then reads `VX` to shift it. For every register
but the flag register that is as good as reading first: the result is half or double the old value,
and the flag holds the bit that went over the edge. In the flag register the bit is what gets
shifted, and the old value is lost (`shifts_halve_and_double`). This makes shifts unlike the other
arithmetic, where the result wins over the flag in `VF` too.
-/

namespace Chip8

namespace Registers

/-- A register after a shift that puts `bit` into the flag. The operand is read behind it. -/
theorem get_shifted (v : Registers) (x s bit : UInt8) (shifted : UInt8 → UInt8) :
    let flagged := v.set flag bit
    (flagged.set x (shifted (flagged.get x))).get s =
      if cell x = cell s then shifted (if cell flag = cell x then bit else v.get x)
      else if cell flag = cell s then bit
      else v.get s := by
  intro flagged
  rw [get_set, get_set, get_set]

theorem get_shiftRight (v : Registers) (x s : UInt8) :
    (v.shiftRight x).get s =
      if cell x = cell s then (if cell flag = cell x then v.get x &&& 1 else v.get x) >>> 1
      else if cell flag = cell s then v.get x &&& 1
      else v.get s :=
  v.get_shifted x s (v.get x &&& 1) (· >>> 1)

theorem get_shiftLeft (v : Registers) (x s : UInt8) :
    (v.shiftLeft x).get s =
      if cell x = cell s then
        (if cell flag = cell x then (v.get x &&& 0x80) >>> 7 else v.get x) <<< 1
      else if cell flag = cell s then (v.get x &&& 0x80) >>> 7
      else v.get s :=
  v.get_shifted x s ((v.get x &&& 0x80) >>> 7) (· <<< 1)

theorem toNat_halved (b : UInt8) : (b >>> 1).toNat = b.toNat / 2 := by
  rw [UInt8.toNat_shiftRight]
  exact Nat.shiftRight_eq_div_pow b.toNat 1

theorem toNat_doubled (b : UInt8) : (b <<< 1).toNat = 2 * b.toNat % 256 := by
  rw [UInt8.toNat_shiftLeft, Nat.mul_comm]
  exact congrArg (· % 256) (Nat.shiftLeft_eq b.toNat 1)

/-- The bit that a halving loses. -/
theorem toNat_lowBit (b : UInt8) : (b &&& 1).toNat = b.toNat % 2 := by
  rw [UInt8.toNat_and]
  exact Nat.and_two_pow_sub_one_eq_mod b.toNat 1

/-- The bit that a doubling loses. -/
theorem toNat_highBit (b : UInt8) : ((b &&& 0x80) >>> 7).toNat = b.toNat / 128 := by
  have hb := b.toNat_lt
  have hlow : b.toNat >>> 7 &&& 1 = b.toNat >>> 7 % 2 :=
    Nat.and_two_pow_sub_one_eq_mod (b.toNat >>> 7) 1
  rw [UInt8.toNat_shiftRight, UInt8.toNat_and]
  show (b.toNat &&& 0x80) >>> 7 = b.toNat / 128
  rw [Nat.shiftRight_and_distrib]
  show b.toNat >>> 7 &&& 1 = b.toNat / 128
  rw [hlow, Nat.shiftRight_eq_div_pow]
  omega

end Registers

namespace Machine

open Registers

variable {κ ρ : Type} [Keypad κ] [RandomSource ρ]

/-- **A shift halves or doubles its register, the flag register excepted.** The result is half the
old value, or double modulo 256, exactly if the register is not the flag register or the old value
happens to agree with the bit that took its place. For the other registers the flag is the bit that
was shifted out, so that nothing of the old value is lost. A shift of the flag register shifts that
bit. No further register changes, and nothing else of the machine. -/
theorem shifts_halve_and_double (m : Machine κ ρ) (x : UInt8) :
    let old := (m.cpu.v.get x).toNat
    let right := (m.execute (.shiftRight x)).machine.cpu.v
    let left := (m.execute (.shiftLeft x)).machine.cpu.v
    ((right.get x).toNat = old / 2 ↔ cell x ≠ cell flag ∨ old < 2) ∧
    ((left.get x).toNat = 2 * old % 256 ↔ cell x ≠ cell flag ∨ old = 0 ∨ old = 0x81) ∧
    (cell x ≠ cell flag →
      (right.get flag).toNat = old % 2 ∧
      old = 2 * (right.get x).toNat + (right.get flag).toNat ∧
      (left.get flag).toNat = old / 128 ∧
      2 * old = 256 * (left.get flag).toNat + (left.get x).toNat) ∧
    (cell x = cell flag →
      (right.get x).toNat = 0 ∧ (left.get x).toNat = 2 * (old / 128)) ∧
    (∀ s, cell s ≠ cell x → cell s ≠ cell flag →
      right.get s = m.cpu.v.get s ∧ left.get s = m.cpu.v.get s) ∧
    m.execute (.shiftRight x) = ⟨.proceeds, m.withCpu { m.cpu with v := right }, []⟩ ∧
    m.execute (.shiftLeft x) = ⟨.proceeds, m.withCpu { m.cpu with v := left }, []⟩ := by
  intro old right left
  have hold : old < 256 := (m.cpu.v.get x).toNat_lt
  have hright : right = m.cpu.v.shiftRight x := rfl
  have hleft : left = m.cpu.v.shiftLeft x := rfl
  -- what the shifted register holds, by whether it is the flag register
  have hrightX : (right.get x).toNat = (if cell flag = cell x then old % 2 else old) / 2 := by
    rw [hright, get_shiftRight, if_pos rfl, toNat_halved, apply_ite UInt8.toNat, toNat_lowBit]
  have hleftX : (left.get x).toNat =
      2 * (if cell flag = cell x then old / 128 else old) % 256 := by
    rw [hleft, get_shiftLeft, if_pos rfl, toNat_doubled, apply_ite UInt8.toNat, toNat_highBit]
  refine ⟨?_, ?_, fun hx => ?_, fun hx => ?_, fun s hsx hs => ?_, rfl, rfl⟩
  · by_cases hx : cell x = cell flag
    · rw [hrightX, if_pos hx.symm]
      simp only [hx, ne_eq, not_true_eq_false, false_or]
      omega
    · rw [hrightX, if_neg (Ne.symm hx)]
      exact iff_of_true rfl (.inl hx)
  · by_cases hx : cell x = cell flag
    · have hbit : old / 128 = if old < 128 then 0 else 1 := by
        split <;> omega
      rw [hleftX, if_pos hx.symm, hbit]
      simp only [hx, ne_eq, not_true_eq_false, false_or]
      split <;> omega
    · rw [hleftX, if_neg (Ne.symm hx)]
      exact iff_of_true rfl (.inl hx)
  · have hrightF : (right.get flag).toNat = old % 2 := by
      rw [hright, get_shiftRight, if_neg hx, if_pos rfl, toNat_lowBit]
    have hleftF : (left.get flag).toNat = old / 128 := by
      rw [hleft, get_shiftLeft, if_neg hx, if_pos rfl, toNat_highBit]
    rw [if_neg (Ne.symm hx)] at hrightX hleftX
    exact ⟨hrightF, by omega, hleftF, by omega⟩
  · rw [if_pos hx.symm] at hrightX hleftX
    exact ⟨by omega, by omega⟩
  · rw [hright, hleft, get_shiftRight, get_shiftLeft]
    simp only [Ne.symm hsx, Ne.symm hs, ↓reduceIte, and_self]

end Machine

namespace Registers

/-- In the flag register 0xc0 is neither halved nor doubled: its bits that were shifted out are. -/
theorem shift_of_flag_loses_operand :
    let v := zeroed.set flag 0xc0
    ((v.shiftRight flag).get flag).toNat ≠ (v.get flag).toNat / 2 ∧
      ((v.shiftLeft flag).get flag).toNat ≠ 2 * (v.get flag).toNat % 256 ∧
      (v.shiftRight flag).get flag = 0 ∧ (v.shiftLeft flag).get flag = 2 := by
  decide

end Registers

end Chip8
