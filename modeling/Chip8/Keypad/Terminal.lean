import Chip8.Keypad.Basic
import Chip8.Keypad.Layout

/-!
# Terminal keys

A keypad on a terminal, which reports presses and never releases: a key counts as held for a while
after its last press. Escape and control-C ask for a quit, and a quit stays asked for. Events are
handled in the order in which they arrive, each of them once; a wait handles no more of them than it
needs.
-/

namespace Chip8

inductive KeyEvent where
  | escape
  | character (c : Char) (control : Bool)
  | other
  deriving DecidableEq, Repr

/-- The event of a character as a terminal in raw mode sends it. Control characters stand for the
letter typed with the control key, except for those that have a key of their own. -/
def KeyEvent.ofTyped (c : Char) : KeyEvent :=
  let n := c.toNat
  if n = 0 then .character ' ' true
  else if n = 0x09 ∨ n = 0x0d ∨ n = 0x7f then .other
  else if n = 0x1b then .escape
  else if n ≤ 0x1a then .character (Char.ofNat (n - 1 + 'a'.toNat)) true
  else if n < 0x20 then .character (Char.ofNat (n - 0x1c + '4'.toNat)) true
  else .character c false

/-- The event of a character typed with the control key, of which only the low five bits are
sent. -/
def KeyEvent.ofControl (c : Char) : KeyEvent :=
  .ofTyped (Char.ofNat (c.toNat % 32))

/-- The events of characters that arrive together. Escape begins the sequence of a key that is not a
character, or a character typed with the alternate key, and stands for itself at the end. Inside a
bracketed sequence, which ends with a letter or a tilde, characters do not count. -/
def KeyEvent.ofSequence (bracketed : Bool) : List Char → List KeyEvent
  | [] => []
  | c :: rest =>
    if bracketed then
      if c.isAlpha || c = '~' then .other :: ofSequence false rest else ofSequence true rest
    else if c = '\x1b' then
      match rest with
      | [] => [.escape]
      | '[' :: later => ofSequence true later
      | 'O' :: _ :: later => .other :: ofSequence false later
      | typed :: later => .ofTyped typed :: ofSequence false later
    else
      .ofTyped c :: ofSequence false rest

structure TerminalKeys where
  /-- Which characters stand for which keys. -/
  map : KeyMap
  /-- How long a press counts as held, in nanoseconds. -/
  hold : Nat
  /-- The time on the clock, in nanoseconds. -/
  now : Nat
  /-- The events that have arrived and have not been handled, in order. -/
  pending : List KeyEvent
  pressedAt : Vector (Option Nat) 16
  quitting : Bool
  deriving DecidableEq, Repr

namespace TerminalKeys

def start (map : KeyMap) (hold : Nat) : TerminalKeys where
  map := map
  hold := hold
  now := 0
  pending := []
  pressedAt := .replicate 16 none
  quitting := false

/-- Events arrive behind those that are pending. -/
def arrive (t : TerminalKeys) (events : List KeyEvent) : TerminalKeys :=
  { t with pending := t.pending ++ events }

def press (t : TerminalKeys) (key : HexKey) : TerminalKeys :=
  { t with pressedAt := t.pressedAt.set key (some t.now) }

/-- Handles one event: the key that it presses, if any. -/
def handle (t : TerminalKeys) (event : KeyEvent) : Reading TerminalKeys (Option HexKey) :=
  match event with
  | .escape => { answer := none, keys := { t with quitting := true } }
  | .other => { answer := none, keys := t }
  | .character c control =>
    if c = 'c' ∧ control then
      { answer := none, keys := { t with quitting := true } }
    else
      match t.map.key? c.toLower with
      | some key => { answer := some key, keys := t.press key }
      | none => { answer := none, keys := t, log := [.unmapped c] }

def handleAll (t : TerminalKeys) : List KeyEvent → Reading TerminalKeys Unit
  | [] => { answer := (), keys := t }
  | event :: rest =>
    let first := t.handle event
    let others := first.keys.handleAll rest
    { answer := (), keys := others.keys, log := first.log ++ others.log }

def drain (t : TerminalKeys) : Reading TerminalKeys Unit :=
  { t with pending := [] }.handleAll t.pending

def isHeld (t : TerminalKeys) (key : UInt8) : Bool :=
  match t.pressedAt[key.toNat]? with
  | some (some pressed) => t.now - pressed < t.hold
  | _ => false

/-- Handles events up to the first that presses a key or asks for a quit, and leaves the rest
pending. If they run out first the terminal is closed, which counts as a quit. -/
def awaitAmong (t : TerminalKeys) : List KeyEvent → Reading TerminalKeys (Option HexKey)
  | [] => { answer := none, keys := { t with pending := [], quitting := true } }
  | event :: rest =>
    if t.quitting then
      { answer := none, keys := { t with pending := event :: rest } }
    else
      let first := t.handle event
      match first.answer with
      | some key =>
        { answer := some key, keys := { first.keys with pending := rest }, log := first.log }
      | none =>
        let later := first.keys.awaitAmong rest
        { answer := later.answer, keys := later.keys, log := first.log ++ later.log }

instance : Keypad TerminalKeys where
  isDown t key :=
    let drained := t.drain
    { answer := drained.keys.isHeld key, keys := drained.keys, log := drained.log }
  awaitKey t :=
    let waited := t.awaitAmong t.pending
    { answer := waited.answer.map fun key => UInt8.ofNat key.val,
      keys := waited.keys,
      log := .waiting :: waited.log }
  quitRequested t :=
    let drained := t.drain
    { answer := drained.keys.quitting, keys := drained.keys, log := drained.log }

/-- Whether an event ends a wait: it presses a key or asks for a quit. -/
def endsWait (map : KeyMap) : KeyEvent → Bool
  | .escape => true
  | .other => false
  | .character c control => (c = 'c' && control) || (map.key? c.toLower).isSome

end TerminalKeys

end Chip8
