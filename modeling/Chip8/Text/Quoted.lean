import Chip8.Text.Hidden

/-!
# Quoted characters

A character between single quotes, as log lines show what was typed. The quote, the backslash and
the common controls are written behind a backslash, and a character without a shape of its own as
its number in braces.
-/

namespace Chip8

namespace Quoted

/-- The number of a character in lowercase hexadecimal digits, between braces. -/
def numbered (c : Char) : List Char :=
  ['\\', 'u', '\x7b'] ++ Nat.toDigits 16 c.toNat ++ ['\x7d']

/-- What stands for a character between the quotes. -/
def escape (c : Char) : List Char :=
  match c with
  | '\x00' => ['\\', '0']
  | '\t' => ['\\', 't']
  | '\n' => ['\\', 'n']
  | '\r' => ['\\', 'r']
  | '\'' => ['\\', '\'']
  | '\\' => ['\\', '\\']
  | c => if isHidden c then numbered c else [c]

def char (c : Char) : String :=
  String.ofList ('\'' :: escape c ++ ['\''])

end Quoted

end Chip8
