import Chip8.Machine.Session
import Chip8.Proofs.Checked.Drawing
import Chip8.Proofs.Instruction.Encoding

/-!
# Running a machine with every check made

Instructions, steps, frames and loads over the checked accesses. The instruction of a word has its
operands within bounds, and a machine of the running system has its stack within its slots; then no
check fails and the result is that of the unchecked run.
-/

namespace Chip8

namespace Processor

variable {κ ρ : Type}

def call? (p : Processor) (addr : UInt16) : Option (Except Fault Unit × Processor) := do
  match ← p.stack.push? p.pc with
  | .ok stack => some (.ok (), { p with stack := stack, pc := addr })
  | .error _ => some (.error (.stackOverflow addr), p)

def ret? (p : Processor) : Option (Except Fault Unit × Processor) := do
  match ← p.stack.pop? with
  | .ok (addr, stack) => some (.ok (), { p with stack := stack, pc := addr })
  | .error f => some (.error f, p)

def tick? (p : Processor) : Option (Bool × Processor) := do
  let (_, delay) ← p.delay.tick?
  let (expired, sound) ← p.sound.tick?
  some (expired, { p with delay := delay, sound := sound })

theorem call?_eq (p : Processor) (addr : UInt16) : p.call? addr = some (p.call addr) := by
  unfold call? call push
  rw [CallStack.push?_eq]
  cases p.stack.push p.pc <;> rfl

theorem ret?_eq {p : Processor} (h : p.stack.size ≤ 16) : p.ret? = some p.ret := by
  unfold ret? ret pop
  rw [CallStack.pop?_eq h]
  cases p.stack.pop <;> rfl

theorem tick?_eq (p : Processor) : p.tick? = some p.tick := by
  unfold tick? tick
  simp only [Countdown.tick?_eq, Option.bind_eq_bind, Option.bind_some]

end Processor

/-- The address of a glyph, with the product and the sum kept within an address. -/
def Font.glyphAddress? (digit : UInt8) : Option UInt16 := do
  let offset ← mul? UInt16.size digit.toNat glyphSize.toNat
  let addr ← add? UInt16.size offset start.toNat
  some (.ofNat addr)

/-- A byte as an address. -/
theorem ofNat_toNat_byte (b : UInt8) : UInt16.ofNat b.toNat = b.toUInt16 := by
  rw [← UInt16.toNat_inj, UInt8.toNat_toUInt16, UInt16.toNat_ofNat']
  exact Nat.mod_eq_of_lt (Nat.lt_of_lt_of_le b.toNat_lt (by decide))

/-- Moving past `x + 1` bytes at once is moving past `x` and one more. -/
theorem add_count (a : UInt16) (x : UInt8) :
    a + UInt16.ofNat (x.toNat + 1) = a + x.toUInt16 + 1 := by
  rw [UInt16.ofNat_add, ofNat_toNat_byte, UInt16.add_assoc]
  rfl

theorem Font.glyphAddress?_eq (digit : UInt8) :
    glyphAddress? digit = some (glyphAddress digit) := by
  have hdigit := digit.toNat_lt
  have hsize : glyphSize.toNat = 5 := rfl
  have hstart : start.toNat = 0 := rfl
  have hmul : digit.toNat * glyphSize.toNat < UInt16.size := by
    rw [hsize]
    show digit.toNat * 5 < 65536
    omega
  have hadd : digit.toNat * glyphSize.toNat + start.toNat < UInt16.size := by
    rw [hstart]
    exact hmul
  have haddr : UInt16.ofNat (digit.toNat * glyphSize.toNat + start.toNat) =
      glyphAddress digit := by
    rw [glyphAddress, UInt16.ofNat_add, UInt16.ofNat_mul, UInt16.ofNat_toNat, UInt16.ofNat_toNat,
      ofNat_toNat_byte]
  simp only [glyphAddress?, mul?_eq hmul, add?_eq hadd, haddr, Option.bind_eq_bind,
    Option.bind_some]

namespace Machine

variable {κ ρ : Type}

def test? [Keypad κ] (m : Machine κ ρ) : Condition → Option (Reading κ Bool)
  | .equals x nn => do
    let vx ← m.cpu.v.get? x
    some { answer := vx == nn, keys := m.keys }
  | .differs x nn => do
    let vx ← m.cpu.v.get? x
    some { answer := vx != nn, keys := m.keys }
  | .same x y => do
    let vx ← m.cpu.v.get? x
    let vy ← m.cpu.v.get? y
    some { answer := vx == vy, keys := m.keys }
  | .distinct x y => do
    let vx ← m.cpu.v.get? x
    let vy ← m.cpu.v.get? y
    some { answer := vx != vy, keys := m.keys }
  | .keyDown x => do
    let vx ← m.cpu.v.get? x
    some (Keypad.isDown m.keys vx)
  | .keyUp x => do
    let vx ← m.cpu.v.get? x
    let reading := Keypad.isDown m.keys vx
    some { reading with answer := !reading.answer }

def awaitKey? [Keypad κ] (m : Machine κ ρ) (x : UInt8) : Option (Turn κ ρ) := do
  let reading := Keypad.awaitKey m.keys
  match reading.answer with
  | some key =>
    let v ← m.cpu.v.set? x key
    some
      { outcome := .proceeds
        machine := { m with cpu := { m.cpu with v := v }, keys := reading.keys }
        log := reading.log }
  | none =>
    some
      { outcome := .quits
        machine := { m with keys := reading.keys }
        log := reading.log ++ [.quitWhileWaiting] }

def draw? (m : Machine κ ρ) (x y n : UInt8) : Option (Turn κ ρ) := do
  let rows ← slice? (.replicate spriteCapacity.toNat (0 : UInt8)) n.toNat
  let sprite ← m.memory.readBlock? m.cpu.index rows.length
  let vx ← m.cpu.v.get? x
  let vy ← m.cpu.v.get? y
  let (hit, display) ← m.display.draw? vx.toNat vy.toNat sprite
  let v ← m.cpu.v.set? Registers.flag hit.toUInt8
  some { m with display := display, cpu := { m.cpu with v := v } }.proceed

def storeBlock? (m : Machine κ ρ) (x : UInt8) : Option (Turn κ ρ) := do
  let count ← add? USize.size x.toNat 1
  let block ← slice? m.cpu.v.cells count
  let memory ← m.memory.writeBlock? m.cpu.index block
  some { m with
    memory := memory
    cpu := m.cpu.setIndex (m.cpu.index + UInt16.ofNat count) }.proceed

def loadBlock? (m : Machine κ ρ) (x : UInt8) : Option (Turn κ ρ) := do
  let bytes ← m.memory.readBlock? m.cpu.index (x.toNat + 1)
  let v ← m.cpu.v.setBlock? 0 bytes
  let count ← add? UInt16.size x.toNat 1
  some { m with
    cpu := { m.cpu with v := v, index := m.cpu.index + UInt16.ofNat count } }.proceed

/-- `execute`, with every check made. -/
def execute? [Keypad κ] [RandomSource ρ] (m : Machine κ ρ) : Instruction → Option (Turn κ ρ)
  | .noop => some m.proceed
  | .clear => some { m with display := m.display.clear }.proceed
  | .ret => do
    let attempt ← m.cpu.ret?
    some (m.proceedWithCpu attempt)
  | .jump addr => some (m.withCpu (m.cpu.jump addr)).proceed
  | .call addr => do
    let attempt ← m.cpu.call? addr
    some (m.proceedWithCpu attempt)
  | .jumpOffset addr => do
    let v0 ← m.cpu.v.get? 0
    some (m.withCpu (m.cpu.jump (addr + v0.toUInt16))).proceed
  | .skip condition => do
    let reading ← m.test? condition
    some
      { outcome := .proceeds
        machine := { m with cpu := m.cpu.skipIf reading.answer, keys := reading.keys }
        log := reading.log }
  | .load x nn => do
    let v ← m.cpu.v.set? x nn
    some (m.withCpu { m.cpu with v := v }).proceed
  | .addByte x nn => do
    let v ← m.cpu.v.addByte? x nn
    some (m.withCpu { m.cpu with v := v }).proceed
  | .combine how x y => do
    let v ← m.cpu.v.combine? how x y
    some (m.withCpu { m.cpu with v := v }).proceed
  | .shiftRight x => do
    let v ← m.cpu.v.shift? x (· &&& 1) (· >>> 1)
    some (m.withCpu { m.cpu with v := v }).proceed
  | .shiftLeft x => do
    let v ← m.cpu.v.shift? x (fun vx => (vx &&& 0x80) >>> 7) (· <<< 1)
    some (m.withCpu { m.cpu with v := v }).proceed
  | .setIndex addr => some (m.withCpu (m.cpu.setIndex addr)).proceed
  | .random x nn => do
    let (byte, random) := randomByte m.random
    let v ← m.cpu.v.set? x (byte &&& nn)
    some { m with cpu := { m.cpu with v := v }, random := random }.proceed
  | .draw x y n => m.draw? x y n
  | .getDelay x => do
    let v ← m.cpu.v.set? x m.cpu.delay.value
    some (m.withCpu { m.cpu with v := v }).proceed
  | .awaitKey x => m.awaitKey? x
  | .setDelay x => do
    let vx ← m.cpu.v.get? x
    some (m.withCpu (m.cpu.setDelay vx)).proceed
  | .setSound x => do
    let vx ← m.cpu.v.get? x
    some (m.withCpu (m.cpu.setSound vx)).proceed
  | .addIndex x => do
    let vx ← m.cpu.v.get? x
    some (m.withCpu (m.cpu.setIndex (m.cpu.index + vx.toUInt16))).proceed
  | .glyph x => do
    let vx ← m.cpu.v.get? x
    let addr ← Font.glyphAddress? vx
    some (m.withCpu (m.cpu.setIndex addr)).proceed
  | .decimal x => do
    let vx ← m.cpu.v.get? x
    let memory ← m.memory.writeBlock? m.cpu.index (decimalDigits vx)
    some { m with memory := memory }.proceed
  | .storeBlock x => m.storeBlock? x
  | .loadBlock x => m.loadBlock? x

def loadFrom? (m : Machine κ ρ) (s : ByteSource) : Option (Turn κ ρ) := do
  match ← m.memory.loadFrom? s with
  | .ok (size, memory) =>
    some
      { outcome := .proceeds
        machine := { m with memory := memory, cpu := m.cpu.jump programStart }
        log := [.loaded size] }
  | .error f => some (m.fail f)

def tick? (m : Machine κ ρ) : Option (Turn κ ρ) := do
  match ← m.cpu.tick? with
  | (false, cpu) => some (m.withCpu cpu).proceed
  | (true, cpu) =>
    some
      { outcome := .proceeds
        machine := { m with cpu := cpu.silence, beeps := m.beeps + 1 }
        log := [.soundExpired] }

theorem test?_eq [Keypad κ] (m : Machine κ ρ) (condition : Condition) :
    m.test? condition = some (m.test condition) := by
  cases condition <;>
    simp only [test?, Registers.get?_eq, Option.bind_eq_bind, Option.bind_some] <;> rfl

theorem awaitKey?_eq [Keypad κ] (m : Machine κ ρ) (x : UInt8) :
    m.awaitKey? x = some (m.awaitKey x) := by
  cases h : (Keypad.awaitKey m.keys).answer with
  | none => simp only [awaitKey?, awaitKey, h]
  | some key =>
    simp only [awaitKey?, awaitKey, h, Registers.set?_eq, Option.bind_eq_bind, Option.bind_some]
    rfl

theorem draw?_eq (m : Machine κ ρ) (x y : UInt8) {n : UInt8} (h : n ≤ spriteCapacity) :
    m.draw? x y n = some (m.draw x y n) := by
  have hn : n.toNat ≤ 15 := h
  have hrows : (m.memory.readBlock m.cpu.index n.toNat).length ≤ 15 := by
    rw [Memory.length_readBlock]
    exact hn
  have hslice : slice? (.replicate spriteCapacity.toNat (0 : UInt8)) n.toNat =
      some (.replicate n.toNat 0) := by
    have hcapacity : n.toNat ≤ spriteCapacity.toNat := hn
    rw [slice?_eq _ hcapacity, Vector.toList_replicate, List.take_replicate,
      Nat.min_eq_left hcapacity]
  simp only [draw?, draw, h, ↓reduceIte, hslice, List.length_replicate, Memory.readBlock?_eq,
    Registers.get?_eq, Display.draw?_eq _ _ _ _ hrows, Registers.set?_eq, Option.bind_eq_bind,
    Option.bind_some]
  rfl

theorem storeBlock?_eq (m : Machine κ ρ) {x : UInt8} (h : x < 16) :
    m.storeBlock? x = some (m.storeBlock x) := by
  have hx : x.toNat < 16 := h
  have hcount : x.toNat + 1 < USize.size := lt_usize (by omega)
  simp only [storeBlock?, storeBlock, h, ↓reduceIte, add?_eq hcount,
    Registers.slice?_cells m.cpu.v (Nat.succ_le_of_lt hx), Memory.writeBlock?_eq, add_count,
    Option.bind_eq_bind, Option.bind_some]

theorem loadBlock?_eq (m : Machine κ ρ) (x : UInt8) :
    m.loadBlock? x = some (m.loadBlock x) := by
  have hx := x.toNat_lt
  have hcount : x.toNat + 1 < UInt16.size := by
    show x.toNat + 1 < 65536
    omega
  simp only [loadBlock?, loadBlock, add?_eq hcount, Memory.readBlock?_eq, Registers.setBlock?_eq,
    add_count, Option.bind_eq_bind, Option.bind_some]

theorem loadFrom?_eq (m : Machine κ ρ) (s : ByteSource) :
    m.loadFrom? s = some (m.loadFrom s) := by
  unfold loadFrom? loadFrom
  rw [Memory.loadFrom?_eq]
  cases m.memory.loadFrom s <;> rfl

theorem tick?_eq (m : Machine κ ρ) : m.tick? = some m.tick := by
  unfold tick? tick
  rw [Processor.tick?_eq]
  rcases m.cpu.tick with ⟨_ | _, cpu⟩ <;> rfl

variable [Keypad κ] [RandomSource ρ]

/-- The instruction of a word passes every check of a machine whose stack is within its slots. -/
theorem execute?_eq {m : Machine κ ρ} (hs : m.cpu.stack.size ≤ 16) {w : UInt16} {i : Instruction}
    (hw : Instruction.ofWord? w = some i) : m.execute? i = some (m.execute i) := by
  cases i with
  | ret => simp only [execute?, execute, Processor.ret?_eq hs, Option.bind_eq_bind, Option.bind_some]
  | call addr =>
    simp only [execute?, execute, Processor.call?_eq, Option.bind_eq_bind, Option.bind_some]
  | skip condition =>
    simp only [execute?, execute, skip, test?_eq, Option.bind_eq_bind, Option.bind_some]
  | draw x y n => exact draw?_eq m x y (Nat.le_of_lt_succ (Instruction.rows_of_ofWord? hw))
  | awaitKey x => exact awaitKey?_eq m x
  | glyph x =>
    simp only [execute?, execute, Registers.get?_eq, Font.glyphAddress?_eq, Option.bind_eq_bind,
      Option.bind_some]
  | decimal x =>
    simp only [execute?, execute, Registers.get?_eq, Memory.writeBlock?_eq, Option.bind_eq_bind,
      Option.bind_some]
  | storeBlock x => exact storeBlock?_eq m (Instruction.last_of_ofWord? hw)
  | loadBlock x => exact loadBlock?_eq m x
  | _ =>
    simp only [execute?, Registers.get?_eq, Registers.set?_eq, Registers.addByte?_eq,
      Registers.combine?_eq, Registers.shift?_eq, Option.bind_eq_bind, Option.bind_some]
    rfl

def step? (m : Machine κ ρ) : Option (Turn κ ρ) := do
  let word ← m.memory.readWord? m.cpu.pc
  let past := m.withCpu m.cpu.advance
  match Instruction.ofWord? word with
  | none => some (past.fail (.unsupportedWord word))
  | some instruction =>
    let turn ← past.execute? instruction
    some { turn with log := .step m.cpu.pc word instruction :: turn.log }

/-- `act`, with every check made. -/
def act? (m : Machine κ ρ) : Action → Option (Turn κ ρ)
  | .load source => m.loadFrom? source
  | .step => m.step?
  | .tick => m.tick?

theorem step?_eq {m : Machine κ ρ} (hs : m.cpu.stack.size ≤ 16) : m.step? = some m.step := by
  simp only [step?, step, Processor.fetch, Memory.readWord?_eq, Option.bind_eq_bind,
    Option.bind_some]
  cases hw : Instruction.ofWord? (m.memory.readWord m.cpu.pc) with
  | none => rfl
  | some i =>
    have hpast : (m.withCpu m.cpu.advance).cpu.stack.size ≤ 16 := hs
    simp only [execute?_eq hpast hw, Option.bind_some]

/-- No action fails a check of a machine whose stack is within its slots. -/
theorem act?_eq {m : Machine κ ρ} (hs : m.cpu.stack.size ≤ 16) (a : Action) :
    m.act? a = some (m.act a) := by
  cases a with
  | load source => exact loadFrom?_eq m source
  | step => exact step?_eq hs
  | tick => exact tick?_eq m

end Machine

end Chip8
