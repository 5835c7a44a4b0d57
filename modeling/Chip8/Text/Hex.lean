/-!
# Hexadecimal text

Numbers as they are written in mnemonics, traces and fault messages: lowercase digits behind `0x`
for addresses, words and bytes, and uppercase digits without a mark for register numbers. A width
is a least digit count; a number that needs more digits is written out in full.
-/

namespace Chip8.Hex

/-- The hexadecimal digits of `n`, led by zeros up to `width` digits. -/
def padded (width n : Nat) : List Char :=
  let digits := Nat.toDigits 16 n
  List.replicate (width - digits.length) '0' ++ digits

/-- An address behind `0x`, in at least three digits. -/
def address (a : UInt16) : String :=
  String.ofList ('0' :: 'x' :: padded 3 a.toNat)

/-- A 16-bit word in four digits, without a mark. -/
def word (w : UInt16) : String :=
  String.ofList (padded 4 w.toNat)

/-- A byte behind `0x`, in two digits. -/
def byte (b : UInt8) : String :=
  String.ofList ('0' :: 'x' :: padded 2 b.toNat)

/-- A register: `V` and its number in uppercase digits. -/
def register (r : UInt8) : String :=
  String.ofList ('V' :: (padded 1 r.toNat).map Char.toUpper)

end Chip8.Hex
