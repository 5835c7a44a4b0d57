import Chip8.Instruction.Basic
import Chip8.Text.Hex

/-!
# Mnemonics

The text of an instruction in a trace: an operation name, then the operands separated by a comma
and a blank. Registers, addresses and bytes differ in shape, so operations of one name are told
apart by their operands.
-/

namespace Chip8

def Condition.mnemonic : Condition → String
  | equals x nn => "SE " ++ Hex.register x ++ ", " ++ Hex.byte nn
  | differs x nn => "SNE " ++ Hex.register x ++ ", " ++ Hex.byte nn
  | same x y => "SE " ++ Hex.register x ++ ", " ++ Hex.register y
  | distinct x y => "SNE " ++ Hex.register x ++ ", " ++ Hex.register y
  | keyDown x => "SKP " ++ Hex.register x
  | keyUp x => "SKNP " ++ Hex.register x

def Combination.mnemonic : Combination → String
  | copy => "LD"
  | or => "OR"
  | and => "AND"
  | xor => "XOR"
  | add => "ADD"
  | subtract => "SUB"
  | subtractFrom => "SUBN"

def Instruction.mnemonic : Instruction → String
  | noop => "NOP"
  | clear => "CLS"
  | ret => "RET"
  | jump addr => "JP " ++ Hex.address addr
  | call addr => "CALL " ++ Hex.address addr
  | jumpOffset addr => "JP V0, " ++ Hex.address addr
  | skip condition => condition.mnemonic
  | load x nn => "LD " ++ Hex.register x ++ ", " ++ Hex.byte nn
  | addByte x nn => "ADD " ++ Hex.register x ++ ", " ++ Hex.byte nn
  | combine how x y => how.mnemonic ++ " " ++ Hex.register x ++ ", " ++ Hex.register y
  | shiftRight x => "SHR " ++ Hex.register x
  | shiftLeft x => "SHL " ++ Hex.register x
  | setIndex addr => "LD I, " ++ Hex.address addr
  | random x nn => "RND " ++ Hex.register x ++ ", " ++ Hex.byte nn
  | draw x y n => "DRW " ++ Hex.register x ++ ", " ++ Hex.register y ++ ", " ++ n.toNat.repr
  | getDelay x => "LD " ++ Hex.register x ++ ", DT"
  | awaitKey x => "LD " ++ Hex.register x ++ ", K"
  | setDelay x => "LD DT, " ++ Hex.register x
  | setSound x => "LD ST, " ++ Hex.register x
  | addIndex x => "ADD I, " ++ Hex.register x
  | glyph x => "LD F, " ++ Hex.register x
  | decimal x => "LD B, " ++ Hex.register x
  | storeBlock x => "LD [I], " ++ Hex.register x
  | loadBlock x => "LD " ++ Hex.register x ++ ", [I]"

end Chip8
