import Chip8.Fault

/-!
# The call stack

Sixteen slots for return addresses, filled from the bottom, and the number of those in use. A pop
leaves the address in its slot, so a slot above the ones in use may hold anything: `pending` is
what the stack stands for, and the lemmas say what a push and a pop do to it. A push onto a full
stack and a pop of an empty one are refused.
-/

namespace Chip8

/-- Slots for return addresses, and how many of them are in use. -/
structure CallStack where
  /-- The slots from the bottom. -/
  slots : Vector UInt16 16
  /-- How many slots are in use. -/
  size : Nat
  deriving DecidableEq, Repr

namespace CallStack

abbrev depth : Nat := 16

def empty : CallStack :=
  ⟨.replicate depth 0, 0⟩

/-- The return addresses of the pending calls, the innermost last. -/
def pending (s : CallStack) : List UInt16 :=
  s.slots.toList.take s.size

/-- Adds a return address, unless every slot is in use. -/
def push (s : CallStack) (addr : UInt16) : Except Fault CallStack :=
  if h : s.size < depth then
    .ok ⟨s.slots.set s.size addr, s.size + 1⟩
  else
    .error (.stackOverflow addr)

/-- Takes the innermost return address off, if there is one. -/
def pop (s : CallStack) : Except Fault (UInt16 × CallStack) :=
  match s.size with
  | 0 => .error .stackUnderflow
  | top + 1 =>
    if h : top < depth then
      .ok (s.slots[top], { s with size := top })
    else
      .error (.noSuchSlot top)

theorem pending_empty : empty.pending = [] := rfl

theorem length_pending {s : CallStack} (h : s.size ≤ depth) : s.pending.length = s.size := by
  simp only [pending, List.length_take, Vector.length_toList]
  exact Nat.min_eq_left h

/-- A push is refused exactly when every slot is in use. -/
theorem push_eq_error_iff (s : CallStack) (addr : UInt16) (f : Fault) :
    s.push addr = .error f ↔ depth ≤ s.size ∧ f = .stackOverflow addr := by
  unfold push
  split
  · rename_i h
    exact ⟨nofun, fun hfull => absurd h (Nat.not_lt.mpr hfull.1)⟩
  · rename_i h
    constructor
    · intro he
      cases he
      exact ⟨Nat.le_of_not_lt h, rfl⟩
    · rintro ⟨-, rfl⟩
      rfl

/-- A push that is taken puts its address behind the pending ones. -/
theorem pending_of_push {s t : CallStack} {addr : UInt16} (h : s.push addr = .ok t) :
    t.pending = s.pending ++ [addr] ∧ t.size = s.size + 1 ∧ t.size ≤ depth := by
  unfold push at h
  split at h
  · rename_i hlt
    cases h
    refine ⟨?_, rfl, hlt⟩
    have hin : s.size < s.slots.toList.length := by simpa using hlt
    simp only [pending, Vector.toList_set, List.take_add_one]
    rw [List.take_set_of_le (Nat.le_refl _), List.getElem?_set_self hin]
    rfl
  · cases h

/-- A pop of a stack within its slots is refused exactly when no call is pending. -/
theorem pop_eq_error_iff {s : CallStack} (h : s.size ≤ depth) (f : Fault) :
    s.pop = .error f ↔ s.size = 0 ∧ f = .stackUnderflow := by
  unfold pop
  split
  · rename_i hz
    constructor
    · intro he
      cases he
      exact ⟨hz, rfl⟩
    · rintro ⟨-, rfl⟩
      rfl
  · rename_i top hs
    have htop : top < depth := by omega
    simp [htop, hs]

/-- A pop takes the innermost pending address off. -/
theorem pending_of_pop {s t : CallStack} {addr : UInt16} (h : s.pop = .ok (addr, t)) :
    s.pending = t.pending ++ [addr] ∧ s.size = t.size + 1 ∧ s.size ≤ depth := by
  unfold pop at h
  split at h
  · cases h
  · rename_i top hs
    split at h
    · rename_i hlt
      cases h
      refine ⟨?_, hs, by omega⟩
      have hin : top < s.slots.toList.length := by simpa using hlt
      simp only [pending, hs, List.take_add_one, List.getElem?_eq_getElem hin]
      rfl
    · cases h

end CallStack

end Chip8
