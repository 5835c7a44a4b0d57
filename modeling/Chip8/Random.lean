/-!
# Random numbers

Where a machine takes its random bytes from: each byte is the low byte of one 32-bit number.
-/

namespace Chip8

/-- A source of 32-bit numbers. -/
class RandomSource (ρ : Type) where
  /-- The next number, and the source after it. -/
  next : ρ → UInt32 × ρ

/-- The next random byte: the low byte of the next number. -/
def randomByte {ρ : Type} [RandomSource ρ] (r : ρ) : UInt8 × ρ :=
  let (number, rest) := RandomSource.next r
  (number.toUInt8, rest)

/-- A source that goes through a list again and again; an empty list gives zeros. -/
structure ScriptedRandom where
  numbers : List UInt32
  drawn : Nat := 0
  deriving DecidableEq, Repr

instance : RandomSource ScriptedRandom where
  next r := (r.numbers.getD (r.drawn % r.numbers.length) 0, { r with drawn := r.drawn + 1 })

end Chip8
