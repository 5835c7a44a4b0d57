/-!
# Key layouts

Which characters of a keyboard stand for which of the sixteen hexadecimal keys.
-/

namespace Chip8

abbrev HexKey : Type := Fin 16

abbrev KeyMap : Type := List (Char × HexKey)

/-- The key of a character, if it has one; of several entries the last counts. -/
def KeyMap.key? (map : KeyMap) (c : Char) : Option HexKey :=
  map.reverse.lookup c

inductive Layout where
  /-- The left half of a typewriter keyboard, arranged like the keypad. -/
  | conventional
  /-- Every digit types itself. -/
  | literal
  deriving DecidableEq, Repr

namespace Layout

/-- The characters of a layout, for the keys 0 to F. -/
def characters : Layout → List Char
  | conventional => ['x', '1', '2', '3', 'q', 'w', 'e', 'a', 's', 'd', 'z', 'c', '4', 'r', 'f', 'v']
  | literal => ['0', '1', '2', '3', '4', '5', '6', '7', '8', '9', 'a', 'b', 'c', 'd', 'e', 'f']

def keyMap (layout : Layout) : KeyMap :=
  layout.characters.zip (List.finRange 16)

end Layout

end Chip8
