import Chip8.Machine.Session

/-!
# What an instruction does, part by part

Carrying out an instruction is written as one function a case. Here the same is laid out the other
way: for each part of the machine, which instructions change it and how. `execute_eq` says that
the parts together are the whole, so a property of one part is read off one table and no proof goes
through all instructions again. The parts of a machine that a table does not name are left alone.
-/

namespace Chip8

namespace Machine

variable {κ ρ : Type} [Keypad κ] [RandomSource ρ]

/-- How an instruction ends. -/
def ending (m : Machine κ ρ) : Instruction → Outcome
  | .ret =>
    match m.cpu.stack.pop with
    | .ok _ => .proceeds
    | .error f => .faults f
  | .call addr =>
    match m.cpu.stack.push m.cpu.pc with
    | .ok _ => .proceeds
    | .error _ => .faults (.stackOverflow addr)
  | .awaitKey _ => if (Keypad.awaitKey m.keys).answer.isSome then .proceeds else .quits
  | .draw _ _ n => if n ≤ spriteCapacity then .proceeds else .faults (.spriteTooTall n)
  | .storeBlock x => if x < 16 then .proceeds else .faults (.noSuchRegister x)
  | _ => .proceeds

/-- What drawing a sprite comes to: whether it met a lit pixel, and the display after it. -/
def drawn (m : Machine κ ρ) (x y n : UInt8) : Bool × Display :=
  m.display.draw (m.cpu.v.get x).toNat (m.cpu.v.get y).toNat
    (m.memory.readBlock m.cpu.index n.toNat)

def registersAfter (m : Machine κ ρ) : Instruction → Registers
  | .load x nn => m.cpu.v.set x nn
  | .addByte x nn => m.cpu.v.addByte x nn
  | .combine how x y => m.cpu.v.combine how x y
  | .shiftRight x => m.cpu.v.shiftRight x
  | .shiftLeft x => m.cpu.v.shiftLeft x
  | .random x nn => m.cpu.v.set x ((randomByte m.random).1 &&& nn)
  | .draw x y n =>
    if n ≤ spriteCapacity then m.cpu.v.setFlag (m.drawn x y n).1 else m.cpu.v
  | .getDelay x => m.cpu.v.set x m.cpu.delay.value
  | .awaitKey x =>
    match (Keypad.awaitKey m.keys).answer with
    | some key => m.cpu.v.set x key
    | none => m.cpu.v
  | .loadBlock x => m.cpu.v.setBlock 0 (m.memory.readBlock m.cpu.index (x.toNat + 1))
  | _ => m.cpu.v

def indexAfter (m : Machine κ ρ) : Instruction → UInt16
  | .setIndex addr => addr
  | .addIndex x => m.cpu.index + (m.cpu.v.get x).toUInt16
  | .glyph x => Font.glyphAddress (m.cpu.v.get x)
  | .storeBlock x => if x < 16 then m.cpu.index + x.toUInt16 + 1 else m.cpu.index
  | .loadBlock x => m.cpu.index + x.toUInt16 + 1
  | _ => m.cpu.index

def pcAfter (m : Machine κ ρ) : Instruction → UInt16
  | .ret =>
    match m.cpu.stack.pop with
    | .ok (addr, _) => addr
    | .error _ => m.cpu.pc
  | .jump addr => addr
  | .call addr =>
    match m.cpu.stack.push m.cpu.pc with
    | .ok _ => addr
    | .error _ => m.cpu.pc
  | .jumpOffset addr => addr + (m.cpu.v.get 0).toUInt16
  | .skip condition =>
    if (m.test condition).answer then m.cpu.pc + Processor.wordSize else m.cpu.pc
  | _ => m.cpu.pc

def stackAfter (m : Machine κ ρ) : Instruction → CallStack
  | .ret =>
    match m.cpu.stack.pop with
    | .ok (_, stack) => stack
    | .error _ => m.cpu.stack
  | .call _ =>
    match m.cpu.stack.push m.cpu.pc with
    | .ok stack => stack
    | .error _ => m.cpu.stack
  | _ => m.cpu.stack

def delayAfter (m : Machine κ ρ) : Instruction → Countdown
  | .setDelay x => .ofValue (m.cpu.v.get x)
  | _ => m.cpu.delay

def soundAfter (m : Machine κ ρ) : Instruction → Countdown
  | .setSound x => .ofValue (m.cpu.v.get x)
  | _ => m.cpu.sound

def memoryAfter (m : Machine κ ρ) : Instruction → Memory
  | .decimal x => m.memory.writeBlock m.cpu.index (decimalDigits (m.cpu.v.get x))
  | .storeBlock x =>
    if x < 16 then m.memory.writeBlock m.cpu.index (m.cpu.v.block 0 (x.toNat + 1)) else m.memory
  | _ => m.memory

def displayAfter (m : Machine κ ρ) : Instruction → Display
  | .clear => m.display.clear
  | .draw x y n => if n ≤ spriteCapacity then (m.drawn x y n).2 else m.display
  | _ => m.display

def keysAfter (m : Machine κ ρ) : Instruction → κ
  | .skip condition => (m.test condition).keys
  | .awaitKey _ => (Keypad.awaitKey m.keys).keys
  | _ => m.keys

def randomAfter (m : Machine κ ρ) : Instruction → ρ
  | .random _ _ => (randomByte m.random).2
  | _ => m.random

def logOf (m : Machine κ ρ) : Instruction → List LogRecord
  | .skip condition => (m.test condition).log
  | .awaitKey _ =>
    match (Keypad.awaitKey m.keys).answer with
    | some _ => (Keypad.awaitKey m.keys).log
    | none => (Keypad.awaitKey m.keys).log ++ [.quitWhileWaiting]
  | _ => []

def cpuAfter (m : Machine κ ρ) (i : Instruction) : Processor where
  v := m.registersAfter i
  index := m.indexAfter i
  pc := m.pcAfter i
  stack := m.stackAfter i
  delay := m.delayAfter i
  sound := m.soundAfter i

def machineAfter (m : Machine κ ρ) (i : Instruction) : Machine κ ρ where
  cpu := m.cpuAfter i
  memory := m.memoryAfter i
  display := m.displayAfter i
  keys := m.keysAfter i
  random := m.randomAfter i
  beeps := m.beeps

private theorem execute_ret (m : Machine κ ρ) :
    m.execute .ret = ⟨m.ending .ret, m.machineAfter .ret, m.logOf .ret⟩ := by
  cases h : m.cpu.stack.pop with
  | ok popped =>
    obtain ⟨addr, stack⟩ := popped
    simp only [execute, Processor.ret, Processor.pop, h, proceedWithCpu, ending, machineAfter,
      cpuAfter, stackAfter, pcAfter]
    rfl
  | error f =>
    simp only [execute, Processor.ret, Processor.pop, h, proceedWithCpu, ending, machineAfter,
      cpuAfter, stackAfter, pcAfter]
    rfl

private theorem execute_call (m : Machine κ ρ) (addr : UInt16) :
    m.execute (.call addr) =
      ⟨m.ending (.call addr), m.machineAfter (.call addr), m.logOf (.call addr)⟩ := by
  cases h : m.cpu.stack.push m.cpu.pc with
  | ok stack =>
    simp only [execute, Processor.call, Processor.push, h, proceedWithCpu, ending, machineAfter,
      cpuAfter, stackAfter, pcAfter]
    rfl
  | error f =>
    simp only [execute, Processor.call, Processor.push, h, proceedWithCpu, ending, machineAfter,
      cpuAfter, stackAfter, pcAfter]
    rfl

private theorem execute_skip (m : Machine κ ρ) (condition : Condition) :
    m.execute (.skip condition) =
      ⟨m.ending (.skip condition), m.machineAfter (.skip condition), m.logOf (.skip condition)⟩ := by
  simp only [execute, skip, Processor.skipIf, machineAfter, cpuAfter, pcAfter]
  cases (m.test condition).answer <;> rfl

private theorem execute_awaitKey (m : Machine κ ρ) (x : UInt8) :
    m.execute (.awaitKey x) =
      ⟨m.ending (.awaitKey x), m.machineAfter (.awaitKey x), m.logOf (.awaitKey x)⟩ := by
  cases h : (Keypad.awaitKey m.keys).answer with
  | some key =>
    simp only [execute, awaitKey, h, ending, machineAfter, cpuAfter, registersAfter, logOf]
    rfl
  | none =>
    simp only [execute, awaitKey, h, ending, machineAfter, cpuAfter, registersAfter, logOf]
    rfl

private theorem execute_draw (m : Machine κ ρ) (x y n : UInt8) :
    m.execute (.draw x y n) =
      ⟨m.ending (.draw x y n), m.machineAfter (.draw x y n), m.logOf (.draw x y n)⟩ := by
  by_cases h : n ≤ spriteCapacity
  · simp only [execute, draw, h, ending, machineAfter, cpuAfter, registersAfter, displayAfter,
      ↓reduceIte]
    rfl
  · simp only [execute, draw, h, ending, machineAfter, cpuAfter, registersAfter, displayAfter,
      ↓reduceIte]
    rfl

private theorem execute_storeBlock (m : Machine κ ρ) (x : UInt8) :
    m.execute (.storeBlock x) =
      ⟨m.ending (.storeBlock x), m.machineAfter (.storeBlock x), m.logOf (.storeBlock x)⟩ := by
  by_cases h : x < 16
  · simp only [execute, storeBlock, h, ending, machineAfter, cpuAfter, indexAfter, memoryAfter,
      ↓reduceIte]
    rfl
  · simp only [execute, storeBlock, h, ending, machineAfter, cpuAfter, indexAfter, memoryAfter,
      ↓reduceIte]
    rfl

/-- The tables describe every instruction completely. -/
theorem execute_eq (m : Machine κ ρ) (i : Instruction) :
    m.execute i = ⟨m.ending i, m.machineAfter i, m.logOf i⟩ := by
  cases i with
  | ret => exact execute_ret m
  | call addr => exact execute_call m addr
  | skip condition => exact execute_skip m condition
  | awaitKey x => exact execute_awaitKey m x
  | draw x y n => exact execute_draw m x y n
  | storeBlock x => exact execute_storeBlock m x
  | _ => rfl

end Machine

end Chip8
