import Chip8.Proofs.Machine.Effects

/-!
# Sums and differences with a flag

Three operations on two registers leave a result in one of them and a carry, or the absence of a
borrow, in the flag register. Both are found from the values before the operation, so nothing
depends on which of the registers coincide: the result is the sum or the difference modulo 256, and
together with the flag it gives the number itself. In the flag register the result stays and the
flag is lost (`sums_and_differences_are_exact`).
-/

namespace Chip8

namespace Registers

section Combined

variable (v : Registers) (how : Combination) {x y result : UInt8} {raised : Bool}

/-- The target holds the result, the flag register not excepted: the flag is written first. -/
theorem get_combine_target
    (h : combination how (v.get x) (v.get y) = (result, some raised)) :
    (v.combine how x y).get x = result := by
  rw [combine, h]
  show ((v.setFlag raised).set x result).get x = result
  rw [get_set_self]

theorem get_combine_flag (h : combination how (v.get x) (v.get y) = (result, some raised))
    (hx : cell x ≠ cell flag) : (v.combine how x y).get flag = raised.toUInt8 := by
  rw [combine, h]
  show ((v.set flag raised.toUInt8).set x result).get flag = raised.toUInt8
  rw [get_set, if_neg hx, get_set_self]

theorem get_combine_other (h : combination how (v.get x) (v.get y) = (result, some raised))
    {s : UInt8} (hx : cell s ≠ cell x) (hs : cell s ≠ cell flag) :
    (v.combine how x y).get s = v.get s := by
  rw [combine, h]
  show ((v.set flag raised.toUInt8).set x result).get s = v.get s
  rw [get_set, if_neg (Ne.symm hx), get_set, if_neg (Ne.symm hs)]

end Combined

theorem toNat_raised (raised : Bool) : raised.toUInt8.toNat = if raised = true then 1 else 0 := by
  cases raised <;> rfl

theorem toNat_sum (a b : UInt8) : ((a + b).toNat : Int) = (a.toNat + b.toNat) % 256 := by
  rw [UInt8.toNat_add]
  omega

theorem toNat_difference (a b : UInt8) : ((a - b).toNat : Int) = (a.toNat - b.toNat) % 256 := by
  have ha := a.toNat_lt
  have hb := b.toNat_lt
  rw [UInt8.toNat_sub]
  omega

/-- A sum with its carry is the sum of the numbers. -/
theorem sum_with_carry (a b : UInt8) :
    ((a + b).toNat : Int) + 256 * (decide (a.toNat + b.toNat ≥ 256)).toUInt8.toNat =
      a.toNat + b.toNat := by
  have ha := a.toNat_lt
  have hb := b.toNat_lt
  rw [toNat_sum, toNat_raised]
  simp only [decide_eq_true_eq]
  split <;> omega

/-- A difference is the difference of the numbers, and 256 more without the flag. -/
theorem difference_with_borrow (a b : UInt8) :
    ((a - b).toNat : Int) =
      a.toNat - b.toNat + 256 * (1 - (decide (b ≤ a)).toUInt8.toNat) := by
  have ha := a.toNat_lt
  have hb := b.toNat_lt
  rw [toNat_difference, toNat_raised]
  simp only [decide_eq_true_eq, UInt8.le_iff_toNat_le]
  split <;> omega

/-- Taking the second number off a sum again borrows exactly if the sum carried. -/
theorem borrow_of_sum (a b : UInt8) :
    ((decide (b ≤ a + b)).toUInt8.toNat : Int) =
      1 - (decide (a.toNat + b.toNat ≥ 256)).toUInt8.toNat := by
  have ha := a.toNat_lt
  have hb := b.toNat_lt
  have hcarry : b ≤ a + b ↔ ¬ a.toNat + b.toNat ≥ 256 := by
    rw [UInt8.le_iff_toNat_le, UInt8.toNat_add]
    omega
  rw [toNat_raised, toNat_raised]
  simp only [decide_eq_true_eq, hcarry, ite_not]
  split <;> rfl

end Registers

namespace Machine

open Registers

variable {κ ρ : Type} [Keypad κ] [RandomSource ρ]

/-- **Sums and differences are exact, whichever registers coincide.** The target holds the sum or
the difference of the two old values modulo 256. Outside the flag register the flag is 0 or 1 and
makes up the rest: what a sum carried, and what a difference did not have to borrow. A target that
is the flag register keeps its result. No further register changes, and nothing else of the
machine. In particular an addition is undone by a subtraction, which borrows what it carried. -/
theorem sums_and_differences_are_exact (m : Machine κ ρ) (x y : UInt8) :
    let value (v : Registers) (r : UInt8) : Int := (v.get r).toNat
    let a := value m.cpu.v x
    let b := value m.cpu.v y
    let after (how : Combination) := (m.execute (.combine how x y)).machine
    let sum := (after .add).cpu.v
    let difference := (after .subtract).cpu.v
    let reverse := (after .subtractFrom).cpu.v
    let again := ((after .add).execute (.combine .subtract x y)).machine.cpu.v
    (value sum x = (a + b) % 256 ∧ value difference x = (a - b) % 256 ∧
      value reverse x = (b - a) % 256) ∧
    (cell x ≠ cell flag →
      (∀ v ∈ [sum, difference, reverse], v.get flag = 0 ∨ v.get flag = 1) ∧
      value sum x + 256 * value sum flag = a + b ∧
      value difference x = a - b + 256 * (1 - value difference flag) ∧
      value reverse x = b - a + 256 * (1 - value reverse flag)) ∧
    (cell x = cell flag →
      value sum flag = (a + b) % 256 ∧ value difference flag = (a - b) % 256 ∧
      value reverse flag = (b - a) % 256) ∧
    (∀ v ∈ [sum, difference, reverse], ∀ s, cell s ≠ cell x → cell s ≠ cell flag →
      v.get s = m.cpu.v.get s) ∧
    (∀ how, m.execute (.combine how x y) =
      ⟨.proceeds, m.withCpu { m.cpu with v := (after how).cpu.v }, []⟩) ∧
    (cell x ≠ cell y → cell x ≠ cell flag → cell y ≠ cell flag →
      again.get x = m.cpu.v.get x ∧ value again flag = 1 - value sum flag) := by
  intro value a b after sum difference reverse again
  have hsum : sum.get x = m.cpu.v.get x + m.cpu.v.get y :=
    m.cpu.v.get_combine_target .add rfl
  have hdifference : difference.get x = m.cpu.v.get x - m.cpu.v.get y :=
    m.cpu.v.get_combine_target .subtract rfl
  have hreverse : reverse.get x = m.cpu.v.get y - m.cpu.v.get x :=
    m.cpu.v.get_combine_target .subtractFrom rfl
  have hresults : value sum x = (a + b) % 256 ∧ value difference x = (a - b) % 256 ∧
      value reverse x = (b - a) % 256 := by
    simp only [value, hsum, hdifference, hreverse]
    exact ⟨toNat_sum _ _, toNat_difference _ _, toNat_difference _ _⟩
  refine ⟨hresults, fun hx => ?_, fun hx => ?_, ?_, fun how => rfl, fun hxy hx hy => ?_⟩
  · -- outside the flag register the flag is what was not lost
    have hcarry : sum.get flag = _ := m.cpu.v.get_combine_flag .add rfl hx
    have hborrow : difference.get flag = _ := m.cpu.v.get_combine_flag .subtract rfl hx
    have hborrow' : reverse.get flag = _ := m.cpu.v.get_combine_flag .subtractFrom rfl hx
    have hbit (raised : Bool) : raised.toUInt8 = 0 ∨ raised.toUInt8 = 1 := by
      cases raised <;> decide
    refine ⟨?_, ?_, ?_, ?_⟩
    · simp only [List.forall_mem_cons, hcarry, hborrow, hborrow', hbit, true_and]
      exact List.forall_mem_nil _
    · simp only [value, hsum, hcarry]
      exact sum_with_carry _ _
    · simp only [value, hdifference, hborrow]
      exact difference_with_borrow _ _
    · simp only [value, hreverse, hborrow']
      exact difference_with_borrow _ _
  · have hflag (v : Registers) : v.get flag = v.get x := congrArg (fun c => v.cells[c]) hx.symm
    simp only [value, hflag]
    exact hresults
  · simp only [List.forall_mem_cons]
    refine ⟨fun s hsx hs => ?_, fun s hsx hs => ?_, fun s hsx hs => ?_, List.forall_mem_nil _⟩
    · exact m.cpu.v.get_combine_other .add rfl hsx hs
    · exact m.cpu.v.get_combine_other .subtract rfl hsx hs
    · exact m.cpu.v.get_combine_other .subtractFrom rfl hsx hs
  · -- the second operand is still there, and what it is taken off is the sum
    have hkept : sum.get y = m.cpu.v.get y :=
      m.cpu.v.get_combine_other .add rfl (Ne.symm hxy) hy
    have hcarry : sum.get flag = _ := m.cpu.v.get_combine_flag .add rfl hx
    have hagain : again.get x = sum.get x - sum.get y :=
      sum.get_combine_target .subtract rfl
    have hborrow : again.get flag = (decide (sum.get y ≤ sum.get x)).toUInt8 :=
      sum.get_combine_flag .subtract rfl hx
    rw [hsum, hkept] at hagain hborrow
    refine ⟨hagain.trans (UInt8.add_sub_cancel _ _), ?_⟩
    simp only [value, hborrow, hcarry]
    exact borrow_of_sum _ _

end Machine

end Chip8
