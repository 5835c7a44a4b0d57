import Mathlib.Data.List.Nodup
import Chip8.Keypad.Scripted
import Chip8.Proofs.Display.Collision
import Chip8.Proofs.Machine.Soundness

/-!
# Drawing a sprite, end to end

The sprite is read from memory at the index register, round the top of memory if need be, and laid
on the picture at the coordinates in two registers, up to the edges. `Covers` says of a position,
from the machine before the instruction alone, whether the sprite is over it. By that everything is
settled: which pixels change, what the flag says, and how many pixels are lit afterwards.
-/

namespace Chip8

/-- A byte of a block is the byte at its own address, modulo the size of memory. -/
theorem Memory.getElem?_readBlock (m : Memory) (a : UInt16) (count r : Nat) :
    (m.readBlock a count)[r]? = if r < count then m.bytes[(a.toNat + r) % 4096]? else none := by
  induction count generalizing a r with
  | zero => rfl
  | succ count ih =>
    cases r with
    | zero => exact (Vector.getElem?_eq_getElem (slot a).isLt).symm
    | succ r =>
      have hnext : (a + 1).toNat = (a.toNat + 1) % 65536 := UInt16.toNat_add a 1
      have hsame : ((a + 1).toNat + r) % 4096 = (a.toNat + (r + 1)) % 4096 := by
        rw [hnext]
        omega
      rw [readBlock, List.getElem?_cons_succ, ih, hsame]
      simp only [Nat.succ_lt_succ_iff]

theorem Framebuffer.nodup_positions : positions.Nodup := by
  refine List.nodup_flatMap.mpr ⟨fun y _ => ?_, ?_⟩
  · exact List.nodup_range.map fun x c h => congrArg Prod.fst h
  · refine List.nodup_range.imp fun {y r} hne p hy hr => ?_
    obtain ⟨x, -, rfl⟩ := List.mem_map.mp hy
    obtain ⟨c, -, hsame⟩ := List.mem_map.mp hr
    exact hne (congrArg Prod.snd hsame).symm

namespace Machine

open Framebuffer Registers

variable {κ ρ : Type}

/-- Whether the sprite of `n` rows at `I`, with its top left corner at `(VX, VY)`, has a set bit
over the pixel in a column of a row. -/
def Covers (m : Machine κ ρ) (x y n : UInt8) (column row : Nat) : Prop :=
  ∃ b < 8, ∃ r < n.toNat,
    column = (m.cpu.v.get x).toNat + b ∧ row = (m.cpu.v.get y).toNat + r ∧
      (m.memory.bytes[(m.cpu.index.toNat + r) % 4096]?).any (·.toNat.testBit (7 - b)) = true

instance (m : Machine κ ρ) (x y n : UInt8) (column row : Nat) :
    Decidable (m.Covers x y n column row) :=
  inferInstanceAs (Decidable (∃ b < 8, ∃ r < n.toNat, _))

/-- The positions of the picture that a sprite covers. -/
def covered (m : Machine κ ρ) (x y n : UInt8) : List (Nat × Nat) :=
  positions.filter fun (column, row) => m.Covers x y n column row

/-- Where there is no byte there is no set bit. -/
theorem any_testBit (o : Option UInt8) (i : Nat) :
    o.any (·.toNat.testBit i) = (o.getD 0).toNat.testBit i := by
  cases o with
  | none => exact (Nat.zero_testBit i).symm
  | some b => rfl

/-- What is covered is where the bytes that drawing reads land. -/
theorem covers_iff_lands (m : Machine κ ρ) (x y n : UInt8) (column row : Nat) :
    m.Covers x y n column row ↔
      Lands (m.cpu.v.get x).toNat (m.cpu.v.get y).toNat (m.memory.readBlock m.cpu.index n.toNat)
        column row := by
  unfold Covers Lands
  rw [Memory.length_readBlock, List.getD_eq_getElem?_getD, Memory.getElem?_readBlock]
  simp only [any_testBit]
  constructor
  · rintro ⟨b, hb, r, hr, rfl, rfl, hset⟩
    rw [Nat.add_sub_cancel_left, Nat.add_sub_cancel_left, if_pos hr]
    exact ⟨by omega, by omega, hset⟩
  · rintro ⟨hcolumn, hrow, hset⟩
    have hr : row - (m.cpu.v.get y).toNat < n.toNat := by omega
    rw [if_pos hr] at hset
    exact ⟨column - (m.cpu.v.get x).toNat, by omega, row - (m.cpu.v.get y).toNat, hr, by omega,
      by omega, hset⟩

theorem mem_covered (m : Machine κ ρ) (x y n : UInt8) (column row : Nat) :
    (column, row) ∈ m.covered x y n ↔
      column < width ∧ row < height ∧ m.Covers x y n column row := by
  rw [covered, List.mem_filter, mem_positions, decide_eq_true_iff, and_assoc]

theorem pixel?_drawn (m : Machine κ ρ) (x y n : UInt8) (column row : Nat) :
    (m.drawn x y n).2.picture.pixel? column row =
      (m.display.picture.pixel? column row).map fun b =>
        if (column, row) ∈ m.covered x y n then b ^^^ pixelOn else b := by
  have hdraw := pixel?_draw m.display.picture (m.cpu.v.get x).toNat (m.cpu.v.get y).toNat
    (m.memory.readBlock m.cpu.index n.toNat) column row
  refine Eq.trans hdraw ?_
  by_cases hin : column < width ∧ row < height
  · by_cases hover : m.Covers x y n column row
    · rw [if_pos ((m.covers_iff_lands x y n column row).mp hover)]
      simp only [mem_covered, hin.1, hin.2, hover, and_self, ↓reduceIte]
      rfl
    · rw [if_neg (mt (m.covers_iff_lands x y n column row).mpr hover), map_flipped_zero]
      simp only [mem_covered, hover, and_false, ↓reduceIte, Option.map_id']
  · have hnone : m.display.picture.pixel? column row = none := dif_neg hin
    rw [hnone]
    rfl

/-- A sprite hits if one of the pixels that it covers is lit. -/
theorem drawn_hit_iff {m : Machine κ ρ} (h : m.display.picture.Binary) (x y n : UInt8) :
    (m.drawn x y n).1 = true ↔
      ∃ p ∈ m.covered x y n, m.display.picture.isLit p.1 p.2 = true := by
  have hhit := draw_hit_iff m.display.picture (m.cpu.v.get x).toNat (m.cpu.v.get y).toNat
    (m.memory.readBlock m.cpu.index n.toNat)
  refine Iff.trans hhit ?_
  constructor
  · rintro ⟨column, row, hlands, hlit⟩
    have hin : column < width ∧ row < height := by
      by_contra hout
      have hnone : m.display.picture.pixel? column row = none := dif_neg hout
      rw [hnone] at hlit
      cases hlit
    refine ⟨(column, row), (m.mem_covered x y n column row).mpr ⟨hin.1, hin.2, ?_⟩, ?_⟩
    · exact (m.covers_iff_lands x y n column row).mpr hlands
    · exact (h.isLit_iff column row).mpr hlit
  · rintro ⟨⟨column, row⟩, hmem, hlit⟩
    obtain ⟨-, -, hcovers⟩ := (m.mem_covered x y n column row).mp hmem
    exact ⟨column, row, (m.covers_iff_lands x y n column row).mp hcovers,
      (h.isLit_iff column row).mp hlit⟩

theorem toUInt8_drawn_hit {m : Machine κ ρ} (h : m.display.picture.Binary) (x y n : UInt8) :
    (m.drawn x y n).1.toUInt8 =
      if ∃ p ∈ m.covered x y n, m.display.picture.isLit p.1 p.2 = true then 1 else 0 := by
  by_cases hhit : ∃ p ∈ m.covered x y n, m.display.picture.isLit p.1 p.2 = true
  · rw [if_pos hhit, (drawn_hit_iff h x y n).mpr hhit]
    rfl
  · rw [if_neg hhit, Bool.eq_false_iff.mpr (mt (drawn_hit_iff h x y n).mp hhit)]
    rfl

/-- None of some positions is lit if they count no lit one. -/
theorem countP_isLit_eq_zero_iff (fb : Framebuffer) (spots : List (Nat × Nat)) :
    spots.countP (fun (column, row) => fb.isLit column row) = 0 ↔
      ¬ ∃ p ∈ spots, fb.isLit p.1 p.2 = true := by
  rw [List.countP_eq_zero]
  exact ⟨fun hnone ⟨p, hp, hlit⟩ => hnone p hp hlit, fun hnone p hp hlit => hnone ⟨p, hp, hlit⟩⟩

theorem litCount_drawn {m : Machine κ ρ} (h : m.display.picture.Binary) (x y n : UInt8) :
    (m.drawn x y n).2.picture.litCount +
        2 * (m.covered x y n).countP (fun (column, row) => m.display.picture.isLit column row) =
      m.display.picture.litCount + (m.covered x y n).length := by
  have hsame : m.covered x y n = positions.filter fun (column, row) =>
      Lands (m.cpu.v.get x).toNat (m.cpu.v.get y).toNat
        (m.memory.readBlock m.cpu.index n.toNat) column row := by
    simp only [covered, covers_iff_lands]
  rw [hsame]
  exact h.litCount_draw _ _ _

variable [Keypad κ] [RandomSource ρ]

theorem execute_draw_of_le (m : Machine κ ρ) (x y : UInt8) {n : UInt8} (h : n ≤ spriteCapacity) :
    m.execute (.draw x y n) = ⟨.proceeds, { m with
      display := (m.drawn x y n).2
      cpu := { m.cpu with v := m.cpu.v.setFlag (m.drawn x y n).1 } }, []⟩ := by
  simp only [execute, draw, h, ↓reduceIte]
  rfl

/-- **A drawn sprite toggles what it covers, and the flag and the count of lit pixels tell.** In any
machine whose pixels are dark or lit, and so in whatever has become of a fresh one, drawing toggles
exactly the pixels of the picture that the sprite covered, raises the flag exactly if one of them
was lit, and lights as many pixels as it covered, less two for each that was lit. It asks for a
paint and touches nothing else, whichever registers hold the coordinates. -/
theorem draw_toggles_what_it_covers :
    (∀ {σ : Type} [Screen σ] (keys : κ) (random : ρ) (screen : σ) (requests : List Request),
      (Console.mk (fresh keys random) screen |>.after requests).machine.display.picture.Binary) ∧
    ∀ (m : Machine κ ρ) (x y n : UInt8), m.display.picture.Binary → n ≤ 15 →
      let turn := m.execute (.draw x y n)
      let before := m.display.picture
      let after := turn.machine.display.picture
      let covered := m.covered x y n
      let vf := turn.machine.cpu.v.get Registers.flag
      turn.outcome = .proceeds ∧ turn.log = [] ∧
      (covered.Nodup ∧ ∀ column row, (column, row) ∈ covered ↔
        column < 64 ∧ row < 32 ∧ m.Covers x y n column row) ∧
      (∀ column row, after.pixel? column row = (before.pixel? column row).map fun b =>
        if (column, row) ∈ covered then b ^^^ 0xff else b) ∧
      vf = (if ∃ p ∈ covered, before.isLit p.1 p.2 = true then 1 else 0) ∧
      after.litCount + 2 * covered.countP (fun (column, row) => before.isLit column row) =
        before.litCount + covered.length ∧
      (vf = 0 ↔ after.litCount = before.litCount + covered.length) ∧
      turn.machine.display.refreshRequested = true ∧
      (∀ s, cell s ≠ cell Registers.flag → turn.machine.cpu.v.get s = m.cpu.v.get s) ∧
      turn.machine = { m with
        display := turn.machine.display
        cpu := { m.cpu with v := turn.machine.cpu.v } } := by
  refine ⟨fun {σ} _ keys random screen requests => ?_, fun m x y n h hn => ?_⟩
  · exact (Console.after_sound (sound_fresh keys random) requests).binary
  intro turn before after covered vf
  have hturn := m.execute_draw_of_le x y hn
  have hafter : after = (m.drawn x y n).2.picture := by
    simp only [after, turn, hturn]
  have hget (s : UInt8) : turn.machine.cpu.v.get s =
      if cell Registers.flag = cell s then (m.drawn x y n).1.toUInt8 else m.cpu.v.get s := by
    simp only [turn, hturn]
    exact m.cpu.v.get_set _ _ _
  have hvf : vf = if ∃ p ∈ covered, before.isLit p.1 p.2 = true then 1 else 0 := by
    refine (hget Registers.flag).trans ?_
    rw [if_pos rfl]
    exact toUInt8_drawn_hit h x y n
  have hcount : after.litCount + 2 * covered.countP (fun (column, row) => before.isLit column row) =
      before.litCount + covered.length := by
    rw [hafter]
    exact litCount_drawn h x y n
  refine ⟨?_, ?_, ⟨nodup_positions.filter _, m.mem_covered x y n⟩, ?_, hvf, hcount, ?_, ?_, ?_, ?_⟩
  · simp only [turn, hturn]
  · simp only [turn, hturn]
  · rw [hafter]
    exact m.pixel?_drawn x y n
  · -- the flag is down if none of the covered pixels was lit
    have hnone : vf = 0 ↔ covered.countP (fun (column, row) => before.isLit column row) = 0 := by
      rw [hvf, countP_isLit_eq_zero_iff]
      split
      · rename_i hhit
        exact ⟨nofun, fun hnone => absurd hhit hnone⟩
      · rename_i hhit
        exact ⟨fun _ => hhit, fun _ => rfl⟩
    rw [hnone]
    omega
  · simp only [turn, hturn]
    rfl
  · intro s hs
    rw [hget, if_neg (Ne.symm hs)]
  · simp only [turn, hturn]

/-- A sprite of two rows in the bottom right corner, with its column in the flag register and its
second row read from the bottom of memory. It puts out the pixel that was lit, and lights the one
below. -/
theorem draw_toggles_what_it_covers_in_corner :
    let keys : ScriptedKeys := ⟨[], [], 0, none⟩
    let random : ScriptedRandom := ⟨[], 0⟩
    let m : Machine ScriptedKeys ScriptedRandom := { fresh keys random with
      memory := Memory.fresh.write 0x0fff 0xff
      display := ⟨(Framebuffer.blank.toggle 62 30).2, false⟩
      cpu := { (fresh keys random).cpu with
        v := (Registers.zeroed.set 0xf 62).set 0 30
        index := 0x0fff } }
    let after := (m.execute (.draw 0xf 0 2)).machine
    m.display.picture.Binary ∧ (2 : UInt8) ≤ 15 ∧
      (62, 30) ∈ m.covered 0xf 0 2 ∧ m.display.picture.isLit 62 30 = true ∧
      (62, 31) ∈ m.covered 0xf 0 2 ∧ m.display.picture.isLit 62 31 = false ∧
      after.cpu.v.get Registers.flag = 1 ∧
      after.display.picture.pixel? 62 30 = some 0 ∧
      after.display.picture.pixel? 62 31 = some 0xff := by
  intro keys random m after
  have h : m.display.picture.Binary := binary_blank.toggle 62 30
  have hn : (2 : UInt8) ≤ 15 := by decide
  obtain ⟨-, -, ⟨-, hcovered⟩, hpixel, hvf, -⟩ := draw_toggles_what_it_covers.2 m 0xf 0 2 h hn
  have htop : (62, 30) ∈ m.covered 0xf 0 2 :=
    (hcovered 62 30).mpr ⟨by decide, by decide, 0, by decide, 0, by decide, rfl, rfl,
      by decide +kernel⟩
  have hbottom : (62, 31) ∈ m.covered 0xf 0 2 :=
    (hcovered 62 31).mpr ⟨by decide, by decide, 0, by decide, 1, by decide, rfl, rfl,
      by decide +kernel⟩
  have hlit : m.display.picture.pixel? 62 30 = some 0xff := by decide +kernel
  have hdark : m.display.picture.pixel? 62 31 = some 0 := by decide +kernel
  have hwas : m.display.picture.isLit 62 30 = true := (h.isLit_iff 62 30).mpr hlit
  have hwasnot : m.display.picture.isLit 62 31 = false := by
    rw [isLit, hdark]
    rfl
  refine ⟨h, hn, htop, hwas, hbottom, hwasnot, ?_, ?_, ?_⟩
  · exact hvf.trans (if_pos ⟨_, htop, hwas⟩)
  · refine (hpixel 62 30).trans ?_
    rw [hlit, Option.map_some, if_pos htop]
    rfl
  · refine (hpixel 62 31).trans ?_
    rw [hdark, Option.map_some, if_pos hbottom]
    rfl

end Machine

end Chip8
