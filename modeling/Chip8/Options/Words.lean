/-!
# Command-line words

How a word of the command line looks before it is known what it is for: the mark that ends the
options, a long option with or without a value attached, a cluster of short options, or a plain
word. A lone `-` is a plain word.
-/

namespace Chip8

inductive CommandWord where
  /-- `--` -/
  | endOfOptions
  /-- `--name` or `--name=value` -/
  | long (name : List Char) (attached : Option (List Char))
  /-- `-` and at least one character. -/
  | short (first : Char) (rest : List Char)
  /-- Anything else. -/
  | plain (text : List Char)
  deriving DecidableEq, Repr

namespace CommandWord

/-- Splits a text at its first equals sign. -/
def splitAttached (text : List Char) : List Char × Option (List Char) :=
  match text.span (· != '=') with
  | (name, []) => (name, none)
  | (name, _ :: value) => (name, some value)

def ofChars (word : List Char) : CommandWord :=
  match word with
  | ['-', '-'] => .endOfOptions
  | '-' :: '-' :: rest =>
    let (name, attached) := splitAttached rest
    .long name attached
  | '-' :: c :: rest => .short c rest
  | _ => .plain word

/-- The value attached to a short option: what follows it, less one equals sign. Nothing at all
is no value; an equals sign alone is an empty one. -/
def shortAttached (rest : List Char) : Option (List Char) :=
  match rest with
  | [] => none
  | '=' :: value => some value
  | _ => some rest

end CommandWord

end Chip8
