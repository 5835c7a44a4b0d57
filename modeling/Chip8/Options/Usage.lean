import Chip8.Options.Parse

/-!
# Usage

What the user is told when a command line does not lead to a run.
-/

namespace Chip8

namespace Usage

def synopsis : String := "Usage: chip8 [OPTIONS] <ROM>"

def version : String := "chip8 0.1.0"

def help : List String :=
  [ "A CHIP-8 interpreter for the terminal",
    "",
    "Press Escape (or Ctrl-C) to quit.",
    "",
    synopsis,
    "",
    "Arguments:",
    "  <ROM>  The ROM file to run",
    "",
    "Options:",
    "  -s, --speed <SPEED>              Instructions per second [default: 500]",
    "      --sound <SOUND>              How to make the beep: beep, bell or mute [default: beep]",
    "  -k, --keymap <KEYMAP>            How keys map onto the hex keypad: conventional or literal",
    "                                   [default: conventional]",
    "      --seed <SEED>                Seed for the random number opcode, for repeatable runs",
    "      --key-hold-ms <KEY_HOLD_MS>  How long a key press counts as held, in milliseconds",
    "                                   [default: 100]",
    "  -h, --help                       Print help",
    "  -V, --version                    Print version" ]

def answer : Refusal → String
  | .helpWanted => String.intercalate "\n" help
  | .versionWanted => version
  | .missingProgram => "error: no ROM file was given\n\n" ++ synopsis
  | .unknownArgument => "error: unexpected argument\n\n" ++ synopsis
  | .badNumber => "error: invalid number\n\n" ++ synopsis
  | .badValue => "error: invalid or missing value\n\n" ++ synopsis
  | .repeated => "error: an option was given twice\n\n" ++ synopsis
  | .unexpectedValue => "error: a value was given to an option that takes none\n\n" ++ synopsis

/-- The exit code after a refusal: a wish that was met is a success. -/
def exitCode : Refusal → UInt32
  | .helpWanted | .versionWanted => 0
  | _ => 2

end Usage

end Chip8
