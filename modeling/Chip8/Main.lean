import Chip8.Keypad.Terminal
import Chip8.Options.Usage
import Chip8.Pacing
import Chip8.Screen.Terminal

/-!
# The command

Runs a program on a terminal. This layer looks at the clock, moves bytes between the terminal and
the devices, and sleeps until something is due. The terminal is expected in raw mode.
-/

namespace Chip8

/-- Random numbers from the standard generator. -/
instance : RandomSource StdGen where
  next g :=
    let (n, rest) := randNat g 0 (UInt32.size - 1)
    (.ofNat n, rest)

namespace Command

abbrev TerminalRun : Type := Run TerminalKeys StdGen TerminalScreen

/-- What was typed and has not been handed to the keys, and whether more may come. -/
structure Typed where
  bytes : ByteArray := .empty
  closed : Bool := false

/-- The run with another state of the keys. -/
def withKeys (r : TerminalRun) (change : TerminalKeys → TerminalKeys) : TerminalRun :=
  let m := r.console.machine
  { r with console := { r.console with machine := { m with keys := change m.keys } } }

/-- Collects what is typed until the terminal is closed. -/
partial def collect (input : IO.FS.Stream) (typed : IO.Ref Typed) : IO Unit := do
  let bytes ← input.read 1
  if bytes.isEmpty then
    typed.modify fun t => { t with closed := true }
  else
    typed.modify fun t => { t with bytes := t.bytes ++ bytes }
    collect input typed

/-- Hands the keys what was typed, and sets their clock. -/
def deliver (typed : IO.Ref Typed) (r : TerminalRun) (now : Nat) : IO TerminalRun := do
  let bytes ← typed.modifyGet fun t => (t.bytes, { t with bytes := .empty })
  let text := (String.fromUTF8? bytes).getD ""
  let arrived := KeyEvent.ofSequence false text.toList
  return withKeys r fun keys => { keys.arrive arrived with now := now }

/-- Waits until a wait for a key would end at once. -/
partial def untilKey (typed : IO.Ref Typed) (r : TerminalRun) : IO TerminalRun := do
  let ready ← deliver typed r (← IO.monoNanosNow)
  let keys := ready.console.machine.keys
  if keys.quitting || keys.pending.any (TerminalKeys.endsWait keys.map) then
    return ready
  if (← typed.get).closed then
    return ready
  IO.sleep 2
  untilKey typed ready

def awaitsKey (r : TerminalRun) : Bool :=
  match Instruction.ofWord? r.console.machine.nextWord with
  | some (.awaitKey _) => true
  | _ => false

/-- Shows on the terminal what a frame has changed. -/
def present (output : IO.FS.Stream) (device : SoundDevice) (before after : TerminalRun) :
    IO Unit := do
  if before.console.screen != after.console.screen then
    output.putStr after.console.screen.showSequence
  let beeps := after.console.machine.beeps - before.console.machine.beeps
  if beeps > 0 then
    output.write ⟨(device.signals beeps).toArray⟩
  output.flush

/-- The terminal as the host of a run. A step that waits for a key is made when there is one. -/
def host (output : IO.FS.Stream) (typed : IO.Ref Typed) (device : SoundDevice) :
    Run.Host IO TerminalKeys StdGen TerminalScreen where
  now := IO.monoNanosNow
  present := present output device
  ready r now := if now ≥ r.nextStep && awaitsKey r then untilKey typed r else return r

/-- Makes passes on a host, and sleeps in between until something is due. -/
partial def loop (host : Run.Host IO TerminalKeys StdGen TerminalScreen) (typed : IO.Ref Typed)
    (pace : Pace) (run : TerminalRun) : IO Ending := do
  let delivered ← deliver typed run (← IO.monoNanosNow)
  match ← delivered.passOn host pace with
  | (some ending, _) => return ending
  | (none, passed) =>
    let later ← IO.monoNanosNow
    if passed.wake > later then
      IO.sleep (.ofNat ((passed.wake - later) / 1000000))
    loop host typed pace passed

def run (o : Options) : IO UInt32 := do
  let rom ← IO.FS.readBinFile o.rom
  let seed ← match o.seed with
    | some n => pure n.toNat
    | none => IO.monoNanosNow
  let keys := TerminalKeys.start o.layout.keyMap o.keyHold
  let turn := (Machine.fresh keys (mkStdGen seed)).load rom.toList
  let input ← IO.getStdin
  let output ← IO.getStdout
  match turn.outcome with
  | .faults fault =>
    IO.eprintln ("Error: " ++ fault.message)
    return 1
  | _ =>
    let typed ← IO.mkRef ({} : Typed)
    let _ ← IO.asTask (collect input typed) .dedicated
    output.putStr TerminalScreen.setUpSequence
    let console : Console TerminalKeys StdGen TerminalScreen :=
      { machine := turn.machine, screen := .start }
    let start := Run.start console o.pace (← IO.monoNanosNow)
    let ending ← loop (host output typed o.sound) typed o.pace start
    output.putStr TerminalScreen.restoreSequence
    output.flush
    match ending with
    | .stopped => return 0
    | .failed fault =>
      IO.eprintln ("Error: " ++ fault.message)
      return 1

end Command

end Chip8

/-- Reads the command line and runs the program it names. -/
def main (args : List String) : IO UInt32 := do
  match Chip8.Options.parse (args.map String.toList) with
  | .ok options => Chip8.Command.run options
  | .error why =>
    let answer := Chip8.Usage.answer why
    if Chip8.Usage.exitCode why == 0 then IO.println answer else IO.eprintln answer
    return Chip8.Usage.exitCode why
