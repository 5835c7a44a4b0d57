/-!
# Decimal numerals

The numbers that option values may be: decimal digits, at least one, behind an optional sign, and
within the range of the option.
-/

namespace Chip8

namespace Numeral

/-- The value of decimal digits, if there is at least one and nothing else. -/
def digits? (text : List Char) : Option Nat :=
  if text.isEmpty || !text.all Char.isDigit then none
  else some (Nat.ofDigitChars 10 text 0)

/-- The number below `2 ^ 32` that a numeral stands for. A minus sign is read, so that a negative
zero is zero and every other negative number is out of range. -/
def word32? (text : List Char) : Option UInt32 :=
  let magnitude? := match text with
    | '+' :: rest => digits? rest
    | '-' :: rest => (digits? rest).filter (· = 0)
    | _ => digits? text
  magnitude?.bind fun n => if n < UInt32.size then some (.ofNat n) else none

/-- The number below `2 ^ 64` that a numeral stands for. A minus sign is not read. -/
def word64? (text : List Char) : Option UInt64 :=
  let magnitude? := match text with
    | '+' :: rest => digits? rest
    | _ => digits? text
  magnitude?.bind fun n => if n < UInt64.size then some (.ofNat n) else none

end Numeral

end Chip8
