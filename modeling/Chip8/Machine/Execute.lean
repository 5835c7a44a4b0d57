import Chip8.Machine.Basic

/-!
# Carrying out instructions

What each instruction does to a machine. The word has been fetched already, so the program counter
is past it. An instruction that fails or quits leaves the machine as it found it, keys apart.
-/

namespace Chip8

namespace Machine

variable {κ ρ : Type}

def spriteCapacity : UInt8 := 15

/-- Whether a condition holds. The two that ask for a key ask the keypad, the others leave it
alone. -/
def test [Keypad κ] (m : Machine κ ρ) : Condition → Reading κ Bool
  | .equals x nn => { answer := m.cpu.v.get x == nn, keys := m.keys }
  | .differs x nn => { answer := m.cpu.v.get x != nn, keys := m.keys }
  | .same x y => { answer := m.cpu.v.get x == m.cpu.v.get y, keys := m.keys }
  | .distinct x y => { answer := m.cpu.v.get x != m.cpu.v.get y, keys := m.keys }
  | .keyDown x => Keypad.isDown m.keys (m.cpu.v.get x)
  | .keyUp x =>
    let reading := Keypad.isDown m.keys (m.cpu.v.get x)
    { reading with answer := !reading.answer }

def skip [Keypad κ] (m : Machine κ ρ) (condition : Condition) : Turn κ ρ :=
  let reading := m.test condition
  { outcome := .proceeds
    machine := { m with cpu := m.cpu.skipIf reading.answer, keys := reading.keys }
    log := reading.log }

/-- Waits for a key and puts it into `VX`; a quit leaves the register alone. -/
def awaitKey [Keypad κ] (m : Machine κ ρ) (x : UInt8) : Turn κ ρ :=
  let reading := Keypad.awaitKey m.keys
  match reading.answer with
  | some key =>
    { outcome := .proceeds
      machine := { m with cpu := m.cpu.setV x key, keys := reading.keys }
      log := reading.log }
  | none =>
    { outcome := .quits
      machine := { m with keys := reading.keys }
      log := reading.log ++ [.quitWhileWaiting] }

def randomize [RandomSource ρ] (m : Machine κ ρ) (x mask : UInt8) : Turn κ ρ :=
  let (byte, random) := randomByte m.random
  { m with cpu := m.cpu.setV x (byte &&& mask), random := random }.proceed

/-- Draws the sprite of `n` rows at `I` with its top left corner at `(VX, VY)`. The flag tells
whether it met a lit pixel. -/
def draw (m : Machine κ ρ) (x y n : UInt8) : Turn κ ρ :=
  if n ≤ spriteCapacity then
    let sprite := m.memory.readBlock m.cpu.index n.toNat
    let (hit, display) :=
      m.display.draw (m.cpu.v.get x).toNat (m.cpu.v.get y).toNat sprite
    { m with
      display := display
      cpu := { m.cpu with v := m.cpu.v.setFlag hit } }.proceed
  else
    m.fail (.spriteTooTall n)

/-- The decimal digits of a byte: hundreds, tens, units. -/
def decimalDigits (b : UInt8) : List UInt8 :=
  [b / 100, b / 10 % 10, b % 10]

/-- Stores `V0` to `VX` from `I` on, and moves `I` past them. -/
def storeBlock (m : Machine κ ρ) (x : UInt8) : Turn κ ρ :=
  if x < 16 then
    { m with
      memory := m.memory.writeBlock m.cpu.index (m.cpu.v.block 0 (x.toNat + 1))
      cpu := m.cpu.setIndex (m.cpu.index + x.toUInt16 + 1) }.proceed
  else
    m.fail (.noSuchRegister x)

/-- Loads `V0` to `VX` from `I` on, and moves `I` past them. -/
def loadBlock (m : Machine κ ρ) (x : UInt8) : Turn κ ρ :=
  let bytes := m.memory.readBlock m.cpu.index (x.toNat + 1)
  { m with
    cpu := { m.cpu with
      v := m.cpu.v.setBlock 0 bytes
      index := m.cpu.index + x.toUInt16 + 1 } }.proceed

def execute [Keypad κ] [RandomSource ρ] (m : Machine κ ρ) : Instruction → Turn κ ρ
  | .noop => m.proceed
  | .clear => { m with display := m.display.clear }.proceed
  | .ret => m.proceedWithCpu m.cpu.ret
  | .jump addr => (m.withCpu (m.cpu.jump addr)).proceed
  | .call addr => m.proceedWithCpu (m.cpu.call addr)
  | .jumpOffset addr => (m.withCpu (m.cpu.jumpOffset addr)).proceed
  | .skip condition => m.skip condition
  | .load x nn => (m.withCpu (m.cpu.setV x nn)).proceed
  | .addByte x nn => (m.withCpu { m.cpu with v := m.cpu.v.addByte x nn }).proceed
  | .combine how x y => (m.withCpu { m.cpu with v := m.cpu.v.combine how x y }).proceed
  | .shiftRight x => (m.withCpu { m.cpu with v := m.cpu.v.shiftRight x }).proceed
  | .shiftLeft x => (m.withCpu { m.cpu with v := m.cpu.v.shiftLeft x }).proceed
  | .setIndex addr => (m.withCpu (m.cpu.setIndex addr)).proceed
  | .random x nn => m.randomize x nn
  | .draw x y n => m.draw x y n
  | .getDelay x => (m.withCpu (m.cpu.setV x m.cpu.delay.value)).proceed
  | .awaitKey x => m.awaitKey x
  | .setDelay x => (m.withCpu (m.cpu.setDelay (m.cpu.v.get x))).proceed
  | .setSound x => (m.withCpu (m.cpu.setSound (m.cpu.v.get x))).proceed
  | .addIndex x =>
    (m.withCpu (m.cpu.setIndex (m.cpu.index + (m.cpu.v.get x).toUInt16))).proceed
  | .glyph x => (m.withCpu (m.cpu.setIndex (Font.glyphAddress (m.cpu.v.get x)))).proceed
  | .decimal x =>
    { m with
      memory := m.memory.writeBlock m.cpu.index (decimalDigits (m.cpu.v.get x)) }.proceed
  | .storeBlock x => m.storeBlock x
  | .loadBlock x => m.loadBlock x

end Machine

end Chip8
