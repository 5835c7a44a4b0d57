import Chip8.Instruction.Basic

/-!
# Decoding

An instruction word is split into its fields, and the fields are looked up group by group. The
groups are uneven: group 0 looks at its low byte only, group 5 ignores its low nibble, groups 8
and 9 turn what they do not know into `noop`, and groups E and F refuse it.
-/

namespace Chip8

/-- The addressing fields of one instruction word. -/
structure Fields where
  /-- The top nibble, which selects the group. -/
  group : UInt8
  /-- The low twelve bits. -/
  nnn : UInt16
  nn : UInt8
  /-- The low nibble. -/
  n : UInt8
  /-- The second nibble, a register number. -/
  x : UInt8
  /-- The third nibble, a register number. -/
  y : UInt8
  deriving Repr, DecidableEq, Inhabited

def Fields.ofWord (w : UInt16) : Fields where
  group := (w >>> 12).toUInt8
  nnn := w &&& 0x0fff
  nn := w.toUInt8
  n := (w &&& 0x000f).toUInt8
  x := ((w >>> 8) &&& 0x000f).toUInt8
  y := ((w >>> 4) &&& 0x000f).toUInt8

namespace Instruction

/-- Group 0, where only the low byte counts. -/
def ofSystem (nn : UInt8) : Instruction :=
  match nn with
  | 0xe0 => .clear
  | 0xee => .ret
  | _ => .noop

/-- Group 8, the operations on two registers. -/
def ofArithmetic (x y n : UInt8) : Instruction :=
  match n with
  | 0x0 => .combine .copy x y
  | 0x1 => .combine .or x y
  | 0x2 => .combine .and x y
  | 0x3 => .combine .xor x y
  | 0x4 => .combine .add x y
  | 0x5 => .combine .subtract x y
  | 0x6 => .shiftRight x
  | 0x7 => .combine .subtractFrom x y
  | 0xe => .shiftLeft x
  | _ => .noop

/-- Group E, the skips on a key. -/
def ofKey (x nn : UInt8) : Option Instruction :=
  match nn with
  | 0x9e => some (.skip (.keyDown x))
  | 0xa1 => some (.skip (.keyUp x))
  | _ => none

/-- Group F: timers, keys, the index register and blocks of memory. -/
def ofDevice (x nn : UInt8) : Option Instruction :=
  match nn with
  | 0x07 => some (.getDelay x)
  | 0x0a => some (.awaitKey x)
  | 0x15 => some (.setDelay x)
  | 0x18 => some (.setSound x)
  | 0x1e => some (.addIndex x)
  | 0x29 => some (.glyph x)
  | 0x33 => some (.decimal x)
  | 0x55 => some (.storeBlock x)
  | 0x65 => some (.loadBlock x)
  | _ => none

/-- The operation that the fields name, or nothing for a word no group knows. -/
def ofFields (f : Fields) : Option Instruction :=
  match f.group with
  | 0x0 => some (ofSystem f.nn)
  | 0x1 => some (.jump f.nnn)
  | 0x2 => some (.call f.nnn)
  | 0x3 => some (.skip (.equals f.x f.nn))
  | 0x4 => some (.skip (.differs f.x f.nn))
  | 0x5 => some (.skip (.same f.x f.y))
  | 0x6 => some (.load f.x f.nn)
  | 0x7 => some (.addByte f.x f.nn)
  | 0x8 => some (ofArithmetic f.x f.y f.n)
  | 0x9 => some (if f.n = 0 then .skip (.distinct f.x f.y) else .noop)
  | 0xa => some (.setIndex f.nnn)
  | 0xb => some (.jumpOffset f.nnn)
  | 0xc => some (.random f.x f.nn)
  | 0xd => some (.draw f.x f.y f.n)
  | 0xe => ofKey f.x f.nn
  | 0xf => ofDevice f.x f.nn
  | _ => some .noop

/-- The operation that a word names, or nothing if the word is not supported. -/
def ofWord? (w : UInt16) : Option Instruction :=
  ofFields (.ofWord w)

end Instruction

end Chip8
