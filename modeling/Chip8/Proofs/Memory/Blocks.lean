import Mathlib.Order.Bounds.Basic
import Chip8.Proofs.Memory.Writes

/-!
# Blocks of any length

A block goes round memory as often as it takes, over what it wrote itself. `meetings` are the
offsets at which it comes to one byte: there are none, one, or several that lie 4096 apart, and the
last of them counts (`read_writeBlock`). An offset is cut to 16 bits, its sum with the start wraps
at 65536, and the bytes at 4096; since 65536 is a multiple of 4096, only the last of these can be
seen.
-/

namespace Chip8

namespace Memory

open ByteWrite

/-- The offsets at which a block of some length from `a` on comes to the byte that `b` names. -/
def meetings (a b : UInt16) (length : Nat) : Set Nat :=
  {o | o < length ∧ (a.toNat + o) % 4096 = b.toNat % 4096}

section Meetings

variable {a b : UInt16} {length o : Nat}

theorem mem_meetings :
    o ∈ meetings a b length ↔ o < length ∧ (a.toNat + o) % 4096 = b.toNat % 4096 :=
  Iff.rfl

theorem meetings_zero : meetings a b 0 = ∅ :=
  Set.eq_empty_of_forall_notMem fun _ ho => Nat.not_lt_zero _ ho.1

/-- One more byte that comes there is the last one that does. -/
theorem isGreatest_meetings_succ (h : (a.toNat + length) % 4096 = b.toNat % 4096) :
    IsGreatest (meetings a b (length + 1)) length :=
  ⟨⟨Nat.lt_succ_self length, h⟩, fun _ ho => Nat.le_of_lt_succ ho.1⟩

theorem meetings_succ_of_ne (h : (a.toNat + length) % 4096 ≠ b.toNat % 4096) :
    meetings a b (length + 1) = meetings a b length := by
  ext o
  rw [mem_meetings, mem_meetings]
  constructor
  · rintro ⟨ho, hmeets⟩
    have hne : o ≠ length := fun he => h (he ▸ hmeets)
    exact ⟨by omega, hmeets⟩
  · rintro ⟨ho, hmeets⟩
    exact ⟨by omega, hmeets⟩

/-- Less than the size of memory before the end, a block does not come round again. -/
theorem isGreatest_meetings_of_near (ho : o ∈ meetings a b length) (hnear : length ≤ o + 4096) :
    IsGreatest (meetings a b length) o := by
  refine ⟨ho, fun o' ho' => ?_⟩
  obtain ⟨hlt, hmeets⟩ := ho
  obtain ⟨hlt', hmeets'⟩ := ho'
  omega

/-- Counting an offset in 16 bits leads to the byte that counting without bound does. -/
theorem mem_meetings_add (ho : o < length) : o ∈ meetings a (a + UInt16.ofNat o) length := by
  have hsum : (a + UInt16.ofNat o).toNat = (a.toNat + o % 65536) % 65536 := by
    rw [UInt16.toNat_add, UInt16.toNat_ofNat']
  refine ⟨ho, ?_⟩
  rw [hsum]
  omega

end Meetings

/-- Each byte of a block goes to the start plus its offset, counted in 16 bits. -/
theorem writeBlock_eq_foldl (m : Memory) (a : UInt16) (block : List UInt8) :
    m.writeBlock a block =
      block.zipIdx.foldl (fun m (v, o) => m.write (a + UInt16.ofNat o) v) m := by
  have hfrom (k : Nat) : m.writeBlock (a + UInt16.ofNat k) block =
      (block.zipIdx k).foldl (fun m (v, o) => m.write (a + UInt16.ofNat o) v) m := by
    induction block generalizing m k with
    | nil => rfl
    | cons v rest ih =>
      have hnext : a + UInt16.ofNat k + 1 = a + UInt16.ofNat (k + 1) := by
        rw [UInt16.add_assoc, UInt16.ofNat_add]
        rfl
      rw [writeBlock, hnext, ih]
      rfl
  have hstart : a + UInt16.ofNat 0 = a := UInt16.add_zero a
  rw [← hfrom 0, hstart]

/-- The latest byte that a block puts somewhere is the one at its last offset there. -/
theorem latest?_placed (a b : UInt16) (block : List UInt8) :
    (∃ o, IsGreatest (meetings a b block.length) o ∧
      latest? (placed a.toNat block) (slot b) = block[o]?) ∨
    (meetings a b block.length = ∅ ∧ latest? (placed a.toNat block) (slot b) = none) := by
  -- from the end of the block, where the latest byte is
  induction block using List.reverseRecOn with
  | nil => exact .inr ⟨meetings_zero, rfl⟩
  | append_singleton block v ih =>
    have hmeets : place (a.toNat + block.length) = slot b ↔
        (a.toNat + block.length) % 4096 = b.toNat % 4096 := Fin.ext_iff
    rw [List.length_append, List.length_singleton, placed_concat, latest?_concat]
    by_cases hlast : (a.toNat + block.length) % 4096 = b.toNat % 4096
    · rw [if_pos (hmeets.mpr hlast)]
      exact .inl ⟨block.length, isGreatest_meetings_succ hlast, List.getElem?_concat_length.symm⟩
    · rw [if_neg (mt hmeets.mp hlast), meetings_succ_of_ne hlast]
      rcases ih with ⟨o, ho, hbyte⟩ | hnone
      · exact .inl ⟨o, ho, hbyte.trans (List.getElem?_append_left ho.1.1).symm⟩
      · exact .inr hnone

/-- The byte at the last offset of a block that leads to an address is what is read there, and the
byte from before if no offset does. -/
theorem read_writeBlock (m : Memory) (a b : UInt16) (block : List UInt8) :
    (∃ o, ∃ h : o < block.length, IsGreatest (meetings a b block.length) o ∧
      (m.writeBlock a block).read b = block[o]) ∨
    (meetings a b block.length = ∅ ∧ (m.writeBlock a block).read b = m.read b) := by
  have hread : (m.writeBlock a block).read b =
      (latest? (placed a.toNat block) (slot b)).getD (m.read b) := by
    rw [writeBlock_eq_putAll]
    exact bytes_putAll m _ (slot b)
  rcases latest?_placed a b block with ⟨o, ho, hbyte⟩ | ⟨hnever, hnone⟩
  · refine .inl ⟨o, ho.1.1, ho, ?_⟩
    rw [hread, hbyte, List.getElem?_eq_getElem ho.1.1]
    rfl
  · refine .inr ⟨hnever, ?_⟩
    rw [hread, hnone]
    rfl

/-- A block that is no longer than memory is read back at every offset. -/
theorem read_writeBlock_add (m : Memory) (a : UInt16) {block : List UInt8}
    (hlength : block.length ≤ 4096) {o : Nat} (ho : o < block.length) :
    (m.writeBlock a block).read (a + UInt16.ofNat o) = block[o] := by
  have hlast : IsGreatest (meetings a (a + UInt16.ofNat o) block.length) o :=
    isGreatest_meetings_of_near (mem_meetings_add ho) (by omega)
  rcases m.read_writeBlock a (a + UInt16.ofNat o) block with ⟨o', _, hlast', hread⟩ | ⟨hnever, -⟩
  · obtain rfl : o = o' := hlast.unique hlast'
    exact hread
  · exact absurd (hnever ▸ hlast.1) (Set.notMem_empty o)

/-- Blocks that have no byte in common can be written in either order. -/
theorem writeBlock_comm (m : Memory) {a c : UInt16} {block other : List UInt8}
    (h : ∀ o < block.length, ∀ o' < other.length,
      (a.toNat + o) % 4096 ≠ (c.toNat + o') % 4096) :
    (m.writeBlock a block).writeBlock c other = (m.writeBlock c other).writeBlock a block := by
  simp only [writeBlock_eq_putAll]
  apply putAll_comm
  intro v hv w hw he
  obtain ⟨o, ho, hva⟩ := addr_of_mem_placed hv
  obtain ⟨o', ho', hwa⟩ := addr_of_mem_placed hw
  rw [hva, hwa] at he
  exact h o ho o' ho' (congrArg Fin.val he)

/-- **The last byte of a block that comes to an address stays there.** A block of any length is
written byte by byte, each to the start plus its offset in 16 bits. Then an address shows the byte
at the largest offset that leads to it modulo 4096, and the byte from before if there is none. So a
block of at most 4096 bytes is read back, blocks that are disjoint modulo 4096 can be written in
either order, and a word is the pair of two neighbouring bytes, high byte first, of which the second
lies at the bottom when the first lies at the top. -/
theorem last_byte_of_block_stays (m : Memory) (a : UInt16) (block : List UInt8) :
    let written := m.writeBlock a block
    (written = block.zipIdx.foldl (fun m (v, o) => m.write (a + UInt16.ofNat o) v) m) ∧
    (∀ b,
      (∃ o, ∃ h : o < block.length, IsGreatest (meetings a b block.length) o ∧
        written.read b = block[o]) ∨
      (meetings a b block.length = ∅ ∧ written.read b = m.read b)) ∧
    (block.length ≤ 4096 → ∀ o, (h : o < block.length) →
      written.read (a + UInt16.ofNat o) = block[o]) ∧
    (∀ c other,
      (∀ o < block.length, ∀ o' < other.length,
        (a.toNat + o) % 4096 ≠ (c.toNat + o') % 4096) →
      written.writeBlock c other = (m.writeBlock c other).writeBlock a block) ∧
    (∀ (image : Memory) (b : UInt16),
      (image.readWord b).toNat = 0x100 * (image.bytes[Fin.ofNat 4096 b.toNat]).toNat +
        (image.bytes[Fin.ofNat 4096 (b.toNat + 1)]).toNat) := by
  intro written
  refine ⟨m.writeBlock_eq_foldl a block, fun b => m.read_writeBlock a b block,
    fun hlength o ho => m.read_writeBlock_add a hlength ho,
    fun c other hdisjoint => m.writeBlock_comm hdisjoint, toNat_readWord⟩

/-- A block that is two bytes longer than the address space, from the top of memory on: its last
byte lies at the bottom, and the one before it where the block began. A short one over the same edge
is read back, and can be written before or after one that begins where it ends. -/
theorem last_byte_of_block_stays_beyond_addresses :
    let long : List UInt8 := List.replicate 65536 1 ++ [2, 3]
    let short : List UInt8 := [4, 5]
    ((zeroed.writeBlock 0x0fff long).read 0xffff = 2 ∧
      (zeroed.writeBlock 0x0fff long).read 0x1000 = 3) ∧
    (short.length ≤ 4096 ∧ (zeroed.writeBlock 0xffff short).read 0 = 5) ∧
    ((∀ o < short.length, ∀ o' < short.length,
      ((0xffff : UInt16).toNat + o) % 4096 ≠ ((1 : UInt16).toNat + o') % 4096) ∧
      (zeroed.writeBlock 0xffff short).writeBlock 1 short =
        (zeroed.writeBlock 1 short).writeBlock 0xffff short) := by
  intro long short
  obtain ⟨-, hshows, -⟩ := last_byte_of_block_stays zeroed 0x0fff long
  obtain ⟨-, -, hback, hcomm, -⟩ := last_byte_of_block_stays zeroed 0xffff short
  have hlength : long.length = 65538 := by
    rw [List.length_append, List.length_replicate]
    rfl
  have hread {b : UInt16} {o : Nat} (hmeets : o ∈ meetings 0x0fff b long.length)
      (hend : 65536 ≤ o) :
      [2, 3][o - 65536]? = some ((zeroed.writeBlock 0x0fff long).read b) := by
    have hlast := isGreatest_meetings_of_near hmeets (by omega)
    have hbehind : long[o]? = [2, 3][o - 65536]? := by
      rw [List.getElem?_append_right (by rwa [List.length_replicate]), List.length_replicate]
    rcases hshows b with ⟨o', h, hlast', hbyte⟩ | ⟨hnever, -⟩
    · obtain rfl : o = o' := hlast.unique hlast'
      rw [← hbehind, hbyte, List.getElem?_eq_getElem h]
    · exact absurd (hnever ▸ hmeets) (Set.notMem_empty o)
  have hdisjoint : ∀ o < short.length, ∀ o' < short.length,
      ((0xffff : UInt16).toNat + o) % 4096 ≠ ((1 : UInt16).toNat + o') % 4096 := by decide
  refine ⟨⟨?_, ?_⟩, ⟨by decide, hback (by decide) 1 (by decide)⟩, hdisjoint,
    hcomm 1 short hdisjoint⟩
  · have hbyte := hread (b := 0xffff) (o := 65536) ⟨by omega, rfl⟩ (by omega)
    exact (Option.some.inj hbyte).symm
  · have hbyte := hread (b := 0x1000) (o := 65537) ⟨by omega, rfl⟩ (by omega)
    exact (Option.some.inj hbyte).symm

/-- Behind the top of memory and behind the last address a word goes on at the bottom. -/
example :
    let m := zeroed.writeBlock 0xffff [1, 2, 3]
    (m.readWord 0x0fff, m.readWord 0xffff) = (0x0102, 0x0102) := by
  decide +kernel

end Memory

end Chip8
