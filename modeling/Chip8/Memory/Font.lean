import Chip8.Memory.Basic

/-!
# The font

Sixteen glyphs, one for each hexadecimal digit, five bytes each, at the bottom of memory. A byte is
one row of a glyph; only its high nibble is lit.
-/

namespace Chip8

namespace Font

def start : UInt16 := 0

def glyphSize : UInt16 := 5

/-- The glyphs of the digits 0 to F, row by row. -/
def glyphs : List UInt8 :=
  [ 0xf0, 0x90, 0x90, 0x90, 0xf0,
    0x20, 0x60, 0x20, 0x20, 0x70,
    0xf0, 0x10, 0xf0, 0x80, 0xf0,
    0xf0, 0x10, 0xf0, 0x10, 0xf0,
    0x90, 0x90, 0xf0, 0x10, 0x10,
    0xf0, 0x80, 0xf0, 0x10, 0xf0,
    0xf0, 0x80, 0xf0, 0x90, 0xf0,
    0xf0, 0x10, 0x20, 0x40, 0x40,
    0xf0, 0x90, 0xf0, 0x90, 0xf0,
    0xf0, 0x90, 0xf0, 0x10, 0xf0,
    0xf0, 0x90, 0xf0, 0x90, 0x90,
    0xe0, 0x90, 0xe0, 0x90, 0xe0,
    0xf0, 0x80, 0x80, 0x80, 0xf0,
    0xe0, 0x90, 0x90, 0x90, 0xe0,
    0xf0, 0x80, 0xf0, 0x80, 0xf0,
    0xf0, 0x80, 0xf0, 0x80, 0x80 ]

/-- The address of the glyph of a digit. Digits beyond F lead to bytes beyond the font. -/
def glyphAddress (digit : UInt8) : UInt16 :=
  digit.toUInt16 * glyphSize + start

end Font

/-- Memory before any program is loaded: the font at the bottom and zeros above. -/
def Memory.fresh : Memory :=
  Memory.zeroed.writeBlock Font.start Font.glyphs

end Chip8
