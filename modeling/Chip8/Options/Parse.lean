import Chip8.Options.Basic
import Chip8.Options.Numeral
import Chip8.Options.Words

/-!
# Reading the command line

Words are read from left to right, and the first refusal is the answer. An argument is applied only
when the next one begins or the words end, so a value that stands as a word of its own is judged
late: an unknown word behind it is refused first.
-/

namespace Chip8

/-- Why no options came out of a command line. -/
inductive Refusal where
  | missingProgram
  /-- An unknown option, or a word with no argument left to take it. -/
  | unknownArgument
  | badNumber
  /-- A value that is not among the choices, empty or missing. -/
  | badValue
  | repeated
  | unexpectedValue
  /-- Not a refusal but a wish: how the program is used. -/
  | helpWanted
  | versionWanted
  deriving DecidableEq, Repr

/-- The arguments that take a value. -/
inductive Argument where
  | rom
  /-- `--speed` or `-s` -/
  | speed
  | sound
  /-- `--keymap` or `-k` -/
  | layout
  | seed
  | keyHold
  deriving DecidableEq, Repr

/-- What an option name stands for. -/
inductive OptionName where
  | valued (argument : Argument)
  | help
  | version
  deriving DecidableEq, Repr

namespace OptionName

/-- The long names. -/
def ofLong? (name : List Char) : Option OptionName :=
  match String.ofList name with
  | "speed" => some (.valued .speed)
  | "sound" => some (.valued .sound)
  | "keymap" => some (.valued .layout)
  | "seed" => some (.valued .seed)
  | "key-hold-ms" => some (.valued .keyHold)
  | "help" => some .help
  | "version" => some .version
  | _ => none

/-- The short names. -/
def ofShort? (c : Char) : Option OptionName :=
  match c with
  | 's' => some (.valued .speed)
  | 'k' => some (.valued .layout)
  | 'h' => some .help
  | 'V' => some .version
  | _ => none

end OptionName

/-- The values given so far. -/
structure Settings where
  rom : Option String := none
  /-- Steps a second. -/
  speed : Option UInt32 := none
  sound : Option SoundDevice := none
  layout : Option Layout := none
  seed : Option UInt64 := none
  keyHold : Option UInt64 := none
  deriving DecidableEq, Repr

namespace Settings

/-- Whether an argument has been given a value. -/
def has (s : Settings) : Argument → Bool
  | .rom => s.rom.isSome
  | .speed => s.speed.isSome
  | .sound => s.sound.isSome
  | .layout => s.layout.isSome
  | .seed => s.seed.isSome
  | .keyHold => s.keyHold.isSome

/-- The device of a name. -/
def soundOf? (text : List Char) : Option SoundDevice :=
  match String.ofList text with
  | "beep" => some .beep
  | "bell" => some .bell
  | "mute" => some .mute
  | _ => none

/-- The layout of a name. -/
def layoutOf? (text : List Char) : Option Layout :=
  match String.ofList text with
  | "conventional" => some .conventional
  | "literal" => some .literal
  | _ => none

/-- A value that was understood, or the refusal of one that was not. -/
def orRefuse {α : Type} (value : Option α) (why : Refusal) : Except Refusal α :=
  match value with
  | some a => .ok a
  | none => .error why

/-- Sets an argument from its text. -/
def set (s : Settings) (argument : Argument) (text : List Char) : Except Refusal Settings :=
  match argument with
  | .rom =>
    if text.isEmpty then .error .badValue
    else .ok { s with rom := some (String.ofList text) }
  | .speed =>
    (orRefuse (Numeral.word32? text) .badNumber).map fun v => { s with speed := some v }
  | .sound =>
    (orRefuse (soundOf? text) .badValue).map fun v => { s with sound := some v }
  | .layout =>
    (orRefuse (layoutOf? text) .badValue).map fun v => { s with layout := some v }
  | .seed =>
    (orRefuse (Numeral.word64? text) .badNumber).map fun v => { s with seed := some v }
  | .keyHold =>
    (orRefuse (Numeral.word64? text) .badNumber).map fun v => { s with keyHold := some v }

/-- Applies an argument: a value must be there, and the argument must be new. -/
def apply (s : Settings) (argument : Argument) (value : Option (List Char)) :
    Except Refusal Settings :=
  match value with
  | none => .error .badValue
  | some text => if s.has argument then .error .repeated else s.set argument text

/-- The options that the settings amount to; what was not given has its default. -/
def options (s : Settings) : Except Refusal Options :=
  match s.rom with
  | none => .error .missingProgram
  | some rom =>
    let standard : Options := { rom := rom }
    .ok
      { rom := rom
        speed := s.speed.getD standard.speed
        sound := s.sound.getD standard.sound
        layout := s.layout.getD standard.layout
        seed := s.seed
        keyHoldMs := s.keyHold.getD standard.keyHoldMs }

end Settings

/-- A command line that has been read up to a point. -/
structure CommandReader where
  settings : Settings := {}
  /-- The argument that was met last and has not been applied, with its value once that is there. -/
  pending : Option (Argument × Option (List Char)) := none
  optionsEnded : Bool := false
  deriving DecidableEq, Repr

namespace CommandReader

def settle (r : CommandReader) : Except Refusal CommandReader :=
  match r.pending with
  | none => .ok r
  | some (argument, value) =>
    match r.settings.apply argument value with
    | .ok settings => .ok { r with settings := settings, pending := none }
    | .error why => .error why

def romNamed (r : CommandReader) : Bool :=
  r.settings.has .rom || r.pending.any (·.1 = .rom)

/-- A word that belongs to no option names the program file, once. -/
def readFree (r : CommandReader) (text : List Char) : Except Refusal CommandReader :=
  if r.romNamed then .error .unknownArgument
  else r.settle.map fun settled => { settled with pending := some (.rom, some text) }

/-- A valued option: an attached value is applied at once, any other is waited for. -/
def readValued (r : CommandReader) (argument : Argument) (attached : Option (List Char)) :
    Except Refusal CommandReader :=
  match r.settle with
  | .error why => .error why
  | .ok settled =>
    let begun := { settled with pending := some (argument, attached) }
    match attached with
    | none => .ok begun
    | some _ => begun.settle

/-- A wish is answered once what came before it has been applied. -/
def readWish (r : CommandReader) (wish : Refusal) : Except Refusal CommandReader :=
  match r.settle with
  | .error why => .error why
  | .ok _ => .error wish

/-- A named option with the value attached to it, if any. -/
def readNamed (r : CommandReader) (name : Option OptionName) (attached : Option (List Char)) :
    Except Refusal CommandReader :=
  match name with
  | none => .error .unknownArgument
  | some (.valued argument) => r.readValued argument attached
  | some .help => r.readWish .helpWanted
  | some .version => r.readWish .versionWanted

def read (r : CommandReader) (word : List Char) : Except Refusal CommandReader :=
  if r.optionsEnded then r.readFree word
  else
    match CommandWord.ofChars word with
    | .endOfOptions => .ok { r with optionsEnded := true }
    | .long name attached =>
      match OptionName.ofLong? name, attached with
      | some .help, some _ | some .version, some _ => .error .unexpectedValue
      | option, _ => r.readNamed option attached
    | .short c rest => r.readNamed (OptionName.ofShort? c) (CommandWord.shortAttached rest)
    | .plain text =>
      match r.pending with
      | some (argument, none) => .ok { r with pending := some (argument, some text) }
      | _ => r.readFree text

def readAll (r : CommandReader) : List (List Char) → Except Refusal CommandReader
  | [] => .ok r
  | word :: rest =>
    match r.read word with
    | .ok next => next.readAll rest
    | .error why => .error why

end CommandReader

def Options.parse (words : List (List Char)) : Except Refusal Options :=
  match ({} : CommandReader).readAll words with
  | .error why => .error why
  | .ok read =>
    match read.settle with
    | .error why => .error why
    | .ok settled => settled.settings.options

end Chip8
