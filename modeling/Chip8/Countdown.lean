/-!
# Countdowns

A byte that is counted down once a frame. `completed` is kept beside the value and holds exactly
when the value is zero (`Countdown.Consistent`), which every operation preserves; a tick reports
that the countdown ran out only on the tick that takes it from one to zero.
-/

namespace Chip8

structure Countdown where
  value : UInt8
  completed : Bool
  deriving DecidableEq, Repr

namespace Countdown

def expired : Countdown :=
  ⟨0, true⟩

/-- A countdown from a value; from zero it has run out at once. -/
def ofValue (v : UInt8) : Countdown :=
  ⟨v, v == 0⟩

/-- Counts one frame; true only if the countdown ran out on it. -/
def tick (c : Countdown) : Bool × Countdown :=
  if c.completed || c.value == 0 then
    (false, c)
  else
    let next := ofValue (c.value - 1)
    (next.completed, next)

/-- The flag and the value agree. -/
def Consistent (c : Countdown) : Prop :=
  c.completed = true ↔ c.value = 0

theorem consistent_expired : expired.Consistent := by
  simp [Consistent, expired]

theorem consistent_ofValue (v : UInt8) : (ofValue v).Consistent := by
  simp [Consistent, ofValue]

theorem consistent_tick {c : Countdown} (h : c.Consistent) : c.tick.2.Consistent := by
  unfold tick
  split
  · exact h
  · exact consistent_ofValue _

/-- A countdown that a tick does not pass over has something left. -/
theorem pos_of_running {c : Countdown} (h : ¬ (c.completed || c.value == 0) = true) :
    1 ≤ c.value.toNat := by
  have hne : c.value.toNat ≠ 0 := by
    intro hz
    have hvalue : c.value = 0 := UInt8.toNat_inj.mp hz
    simp [hvalue] at h
  omega

/-- A countdown that a tick passes over has run out. -/
theorem value_of_stopped {c : Countdown} (h : c.Consistent)
    (hstop : (c.completed || c.value == 0) = true) : c.value = 0 := by
  rw [Bool.or_eq_true, beq_iff_eq] at hstop
  rcases hstop with hcompleted | hvalue
  · exact h.mp hcompleted
  · exact hvalue

/-- A tick takes one off, and nothing off a countdown that has run out. -/
theorem tick_value {c : Countdown} (h : c.Consistent) :
    c.tick.2.value.toNat = c.value.toNat - 1 := by
  unfold tick
  split
  · rename_i hstop
    rw [value_of_stopped h hstop]
    rfl
  · rename_i hrun
    exact UInt8.toNat_sub_of_le _ _ (pos_of_running hrun)

/-- A countdown runs out on the tick that takes it from one to zero. -/
theorem tick_iff {c : Countdown} (h : c.Consistent) : c.tick.1 = true ↔ c.value.toNat = 1 := by
  unfold tick
  split
  · rename_i hstop
    rw [value_of_stopped h hstop]
    exact ⟨nofun, nofun⟩
  · rename_i hrun
    have hpos := pos_of_running hrun
    have hleft : (c.value - 1).toNat = c.value.toNat - 1 := UInt8.toNat_sub_of_le _ _ hpos
    have hzero : (ofValue (c.value - 1)).completed = true ↔ (c.value - 1).toNat = 0 := by
      rw [ofValue, beq_iff_eq, ← UInt8.toNat_inj]
      rfl
    rw [hzero, hleft]
    omega

/-- A countdown that runs out on a tick is as if it had been put out. -/
theorem eq_expired_of_tick {c d : Countdown} (h : c.tick = (true, d)) : d = expired := by
  unfold tick at h
  split at h
  · cases h
  · obtain ⟨hrun, rfl⟩ := Prod.ext_iff.mp h
    have hzero : c.value - 1 = 0 := by simpa [ofValue] using hrun
    simp [ofValue, expired, hzero]

end Countdown

end Chip8
