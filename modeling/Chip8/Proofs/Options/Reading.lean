import Chip8.Options.Parse

/-!
# Arguments on a command line

An argument is given in one word or two, and in one of several ways (`Spells`). The reader applies
some values at once and others only when the next argument begins, but whichever way an argument is
given, it comes to the same in the end: `Reads` says what has been given by now, applied or not, and
each argument takes it to what is given with it (`Reads.giving`). A value that is refused is refused
at the latest when the next argument begins, before anything else can be (`Reads.refused`).
-/

namespace Chip8

namespace Argument

/-- The long name of an option. The program file has none. -/
def longName? : Argument → Option String
  | .rom => none
  | .speed => some "speed"
  | .sound => some "sound"
  | .layout => some "keymap"
  | .seed => some "seed"
  | .keyHold => some "key-hold-ms"

def shortName? : Argument → Option Char
  | .speed => some 's'
  | .layout => some 'k'
  | _ => none

end Argument

/-- The words that give an argument a value, in each way there is. -/
inductive Spells : Argument → List Char → List (List Char) → Prop where
  /-- `ROM` -/
  | rom {text : List Char} (hdash : text.head? ≠ some '-') : Spells .rom text [text]
  /-- `--name value` -/
  | longApart {argument : Argument} {name : String} {text : List Char}
      (hname : argument.longName? = some name) (hdash : text.head? ≠ some '-') :
      Spells argument text ['-' :: '-' :: name.toList, text]
  /-- `--name=value` -/
  | longAttached {argument : Argument} {name : String} {text : List Char}
      (hname : argument.longName? = some name) :
      Spells argument text ['-' :: '-' :: (name.toList ++ '=' :: text)]
  /-- `-n value` -/
  | shortApart {argument : Argument} {name : Char} {text : List Char}
      (hname : argument.shortName? = some name) (hdash : text.head? ≠ some '-') :
      Spells argument text [['-', name], text]
  /-- `-n=value` -/
  | shortAttached {argument : Argument} {name : Char} {text : List Char}
      (hname : argument.shortName? = some name) :
      Spells argument text ['-' :: name :: '=' :: text]
  /-- `-nvalue` -/
  | shortJoined {argument : Argument} {name : Char} {first : Char} {rest : List Char}
      (hname : argument.shortName? = some name) (hfirst : first ≠ '=') :
      Spells argument (first :: rest) ['-' :: name :: first :: rest]

/-- An argument as it is given on a command line. -/
structure Giving where
  argument : Argument
  text : List Char
  words : List (List Char)
  spelled : Spells argument text words

/-- The words of a command line. -/
def commandLine (givings : List Giving) : List (List Char) :=
  givings.flatMap (·.words)

theorem commandLine_append (first rest : List Giving) :
    commandLine (first ++ rest) = commandLine first ++ commandLine rest :=
  List.flatMap_append

namespace CommandWord

theorem ofChars_plain {word : List Char} (h : word.head? ≠ some '-') :
    ofChars word = .plain word := by
  unfold ofChars
  split
  · exact absurd rfl h
  · exact absurd rfl h
  · exact absurd rfl h
  · rfl

end CommandWord

namespace Settings

variable {s t : Settings} {argument : Argument} {text : List Char}

theorem orRefuse_map_eq_ok {α β : Type} {value : Option α} {why : Refusal} {f : α → β} {b : β}
    (h : (orRefuse value why).map f = .ok b) : ∃ a, value = some a ∧ f a = b := by
  cases value with
  | none => cases h
  | some a =>
    cases h
    exact ⟨a, rfl, rfl⟩

/-- A setting that is made is there afterwards, and so are those made before. -/
theorem has_of_set (h : s.set argument text = .ok t) (a : Argument) :
    t.has a = (s.has a || decide (a = argument)) := by
  cases argument with
  | rom =>
    simp only [set] at h
    split at h
    · cases h
    · cases h
      cases a <;> simp [has]
  | _ =>
    obtain ⟨value, -, rfl⟩ := orRefuse_map_eq_ok h
    cases a <;> simp [has]

/-- A value that is taken was the first of its argument, and is the only one that is new. -/
theorem has_of_apply (h : s.apply argument (some text) = .ok t) :
    s.has argument = false ∧ ∀ a, t.has a = (s.has a || decide (a = argument)) := by
  simp only [apply] at h
  split at h
  · cases h
  · next hnew => exact ⟨Bool.eq_false_iff.mpr hnew, has_of_set h⟩

end Settings

namespace CommandReader

variable {r : CommandReader} {argument : Argument} {text : List Char}

section Opening

variable {name : String} {short : Char}

/-- A long option opens its argument. -/
theorem read_long (hgoing : r.optionsEnded = false) (hname : argument.longName? = some name) :
    r.read ('-' :: '-' :: name.toList) = r.readValued argument none := by
  cases argument with
  | rom => cases hname
  | _ =>
    cases hname
    simp only [read, hgoing]
    rfl

theorem read_long_attached (hgoing : r.optionsEnded = false)
    (hname : argument.longName? = some name) :
    r.read ('-' :: '-' :: (name.toList ++ '=' :: text)) = r.readValued argument (some text) := by
  cases argument with
  | rom => cases hname
  | _ =>
    cases hname
    simp only [read, hgoing]
    rfl

theorem read_short (hgoing : r.optionsEnded = false) (hname : argument.shortName? = some short) :
    r.read ['-', short] = r.readValued argument none := by
  cases argument with
  | speed | layout =>
    cases hname
    simp only [read, hgoing]
    rfl
  | _ => cases hname

theorem read_short_attached (hgoing : r.optionsEnded = false)
    (hname : argument.shortName? = some short) :
    r.read ('-' :: short :: '=' :: text) = r.readValued argument (some text) := by
  cases argument with
  | speed | layout =>
    cases hname
    simp only [read, hgoing]
    rfl
  | _ => cases hname

theorem read_short_joined {first : Char} (hgoing : r.optionsEnded = false)
    (hname : argument.shortName? = some short) (hfirst : first ≠ '=') :
    r.read ('-' :: short :: first :: text) = r.readValued argument (some (first :: text)) := by
  have hattached : CommandWord.shortAttached (first :: text) = some (first :: text) := by
    unfold CommandWord.shortAttached
    split
    · next h => cases h
    · next h => exact absurd (List.cons.inj h).1 hfirst
    · rfl
  cases argument with
  | speed | layout =>
    cases hname
    simp only [read, hgoing, ← hattached]
    rfl
  | _ => cases hname

/-- A value that stands as a word of its own is kept for the argument that waits for it. -/
theorem read_value (hgoing : r.optionsEnded = false) (hwaits : r.pending = some (argument, none))
    (hdash : text.head? ≠ some '-') :
    r.read text = .ok { r with pending := some (argument, some text) } := by
  simp only [read, hgoing, CommandWord.ofChars_plain hdash, hwaits]
  rfl

/-- Any other word that is no option names the program file. -/
theorem read_free (hgoing : r.optionsEnded = false)
    (hcomplete : ∀ a, r.pending ≠ some (a, none)) (hdash : text.head? ≠ some '-') :
    r.read text = r.readFree text := by
  simp only [read, hgoing, CommandWord.ofChars_plain hdash, Bool.false_eq_true, ↓reduceIte]

/-- A word that opens an argument, with a value attached to it or not. -/
def Opens (flag : List Char) (argument : Argument) (attached : Option (List Char)) : Prop :=
  ∀ r : CommandReader, r.optionsEnded = false → r.read flag = r.readValued argument attached

/-- The words of an option are one that opens it and its value, or one with the value attached. -/
theorem opens_of_spells {words : List (List Char)} (h : Spells argument text words)
    (hoption : argument ≠ .rom) :
    (∃ flag, words = [flag, text] ∧ text.head? ≠ some '-' ∧ Opens flag argument none) ∨
      ∃ flag, words = [flag] ∧ Opens flag argument (some text) := by
  cases h with
  | rom hdash => exact absurd rfl hoption
  | longApart hname hdash =>
    exact .inl ⟨_, rfl, hdash, fun _ hgoing => read_long hgoing hname⟩
  | longAttached hname => exact .inr ⟨_, rfl, fun _ hgoing => read_long_attached hgoing hname⟩
  | shortApart hname hdash =>
    exact .inl ⟨_, rfl, hdash, fun _ hgoing => read_short hgoing hname⟩
  | shortAttached hname => exact .inr ⟨_, rfl, fun _ hgoing => read_short_attached hgoing hname⟩
  | shortJoined hname hfirst =>
    exact .inr ⟨_, rfl, fun _ hgoing => read_short_joined hgoing hname hfirst⟩

end Opening

/-- What has been given by now comes to these settings, whether it has been applied or not. -/
structure Reads (r : CommandReader) (s : Settings) : Prop where
  going : r.optionsEnded = false
  complete : ∀ a, r.pending ≠ some (a, none)
  settles : r.settle = .ok { r with settings := s, pending := none }
  /-- A program file is found whether it has been applied or not. -/
  rom_named : r.romNamed = s.has .rom

theorem reads_start : Reads {} {} where
  going := rfl
  complete := nofun
  settles := rfl
  rom_named := rfl

variable {s t : Settings}

/-- A value that waits to be applied counts as given. -/
theorem reads_pending (hgoing : r.optionsEnded = false)
    (happly : s.apply argument (some text) = .ok t) :
    Reads { r with settings := s, pending := some (argument, some text) } t where
  going := hgoing
  complete := by simp
  settles := by simp only [settle, happly]
  rom_named := by
    rw [(Settings.has_of_apply happly).2 .rom, romNamed]
    simp [eq_comm]

theorem reads_applied (hgoing : r.optionsEnded = false) :
    Reads { r with settings := s, pending := none } s where
  going := hgoing
  complete := nofun
  settles := rfl
  rom_named := by simp [romNamed]

/-- An option without its value is waited for. -/
theorem Reads.readValued_none (h : r.Reads s) :
    r.readValued argument none =
      .ok { r with settings := s, pending := some (argument, none) } := by
  simp only [readValued, h.settles]

/-- A value that is attached is applied at once. -/
theorem Reads.readValued_some (h : r.Reads s) :
    r.readValued argument (some text) =
      (s.apply argument (some text)).map fun t => { r with settings := t, pending := none } := by
  simp only [readValued, h.settles]
  simp only [settle]
  cases s.apply argument (some text) <;> rfl

/-- An argument that is taken is given with the others, however it is spelled. -/
theorem Reads.giving (h : r.Reads s) (g : Giving)
    (happly : s.apply g.argument (some g.text) = .ok t) :
    ∃ next, r.readAll g.words = .ok next ∧ next.Reads t := by
  obtain ⟨argument, text, words, hspells⟩ := g
  replace happly : s.apply argument (some text) = .ok t := happly
  show ∃ next, r.readAll words = .ok next ∧ next.Reads t
  by_cases hoption : argument = .rom
  · subst hoption
    cases hspells with
    | rom hdash =>
      have hnew : r.romNamed = false := by
        rw [h.rom_named, (Settings.has_of_apply happly).1]
      refine ⟨_, ?_, reads_pending h.going happly⟩
      simp only [readAll, read_free h.going h.complete hdash, readFree, hnew, h.settles]
      rfl
    | _ hname => cases hname
  · rcases opens_of_spells hspells hoption with ⟨flag, rfl, hdash, hopens⟩ | ⟨flag, rfl, hopens⟩
    · have hvalue := read_value (r := { r with settings := s, pending := some (argument, none) })
        h.going rfl hdash
      refine ⟨_, ?_, reads_pending h.going happly⟩
      simp only [readAll, hopens r h.going, h.readValued_none, hvalue]
    · refine ⟨_, ?_, reads_applied h.going⟩
      simp only [readAll, hopens r h.going, h.readValued_some, happly]
      rfl

theorem readAll_append (first rest : List (List Char)) :
    r.readAll (first ++ rest) =
      match r.readAll first with
      | .ok next => next.readAll rest
      | .error why => .error why := by
  induction first generalizing r with
  | nil => rfl
  | cons word first ih =>
    simp only [List.cons_append, readAll]
    cases r.read word with
    | ok next => exact ih
    | error why => rfl

/-- What comes of reading the words that are left. -/
def conclude (r : CommandReader) (words : List (List Char)) : Except Refusal Options :=
  match r.readAll words with
  | .error why => .error why
  | .ok read =>
    match read.settle with
    | .error why => .error why
    | .ok settled => settled.settings.options

theorem parse_eq_conclude (words : List (List Char)) :
    Options.parse words = conclude {} words :=
  rfl

theorem conclude_append {first : List (List Char)} {next : CommandReader}
    (h : r.readAll first = .ok next) (rest : List (List Char)) :
    r.conclude (first ++ rest) = next.conclude rest := by
  simp only [conclude, readAll_append, h]

theorem conclude_refused {word : List Char} {why : Refusal} (h : r.read word = .error why)
    (rest : List (List Char)) : r.conclude (word :: rest) = .error why := by
  simp only [conclude, readAll, h]

theorem Reads.conclude_nil (h : r.Reads s) : r.conclude [] = s.options := by
  simp only [conclude, readAll, h.settles]

/-- A further word, once the program file is named, is one too many. -/
theorem Reads.conclude_free (h : r.Reads s) (hrom : s.has .rom = true) {word : List Char}
    (hdash : word.head? ≠ some '-') (rest : List (List Char)) :
    r.conclude (word :: rest) = .error .unknownArgument := by
  apply conclude_refused
  simp only [read_free h.going h.complete hdash, readFree, h.rom_named, hrom, ↓reduceIte]

/-- A value that waits and will be refused is refused when the next argument begins, or at the end.
A program file behind it has to be the first. -/
theorem conclude_of_pending {why : Refusal} (hgoing : r.optionsEnded = false)
    (hcomplete : ∀ a, r.pending ≠ some (a, none)) (hsettle : r.settle = .error why)
    (rest : List Giving) (hrom : .rom ∈ rest.map (·.argument) → r.romNamed = false) :
    r.conclude (commandLine rest) = .error why := by
  cases rest with
  | nil =>
    show r.conclude [] = .error why
    simp only [conclude, readAll, hsettle]
  | cons g rest =>
    obtain ⟨argument, text, words, hspells⟩ := g
    show r.conclude (words ++ commandLine rest) = .error why
    by_cases hoption : argument = .rom
    · subst hoption
      have hnew : r.romNamed = false := hrom List.mem_cons_self
      cases hspells with
      | rom hdash =>
        apply conclude_refused
        simp only [read_free hgoing hcomplete hdash, readFree, hnew, hsettle]
        rfl
      | _ hname => cases hname
    · have hvalued (attached : Option (List Char)) :
          r.readValued argument attached = .error why := by
        simp only [readValued, hsettle]
      rcases opens_of_spells hspells hoption with ⟨flag, rfl, -, hopens⟩ | ⟨flag, rfl, hopens⟩
      · exact conclude_refused ((hopens r hgoing).trans (hvalued none)) _
      · exact conclude_refused ((hopens r hgoing).trans (hvalued (some text))) _

/-- An option that is not taken decides what comes of the command line, whatever arguments are
behind it, as long as no second program file is. -/
theorem Reads.refused (h : r.Reads s) (g : Giving) (hoption : g.argument ≠ .rom) {why : Refusal}
    (happly : s.apply g.argument (some g.text) = .error why) (rest : List Giving)
    (hrom : .rom ∈ rest.map (·.argument) → s.has .rom = false) :
    r.conclude (g.words ++ commandLine rest) = .error why := by
  obtain ⟨argument, text, words, hspells⟩ := g
  replace happly : s.apply argument (some text) = .error why := happly
  replace hoption : argument ≠ .rom := hoption
  show r.conclude (words ++ commandLine rest) = .error why
  rcases opens_of_spells hspells hoption with ⟨flag, rfl, hdash, hopens⟩ | ⟨flag, rfl, hopens⟩
  · have hvalue := read_value (r := { r with settings := s, pending := some (argument, none) })
      h.going rfl hdash
    have hread : r.readAll [flag, text] =
        .ok { r with settings := s, pending := some (argument, some text) } := by
      simp only [readAll, hopens r h.going, h.readValued_none, hvalue]
    rw [conclude_append hread]
    refine conclude_of_pending
      (r := { r with settings := s, pending := some (argument, some text) })
      h.going (by simp) (by simp only [settle, happly]) rest fun hlater => ?_
    simp [romNamed, hrom hlater, hoption]
  · apply conclude_refused
    rw [hopens r h.going, h.readValued_some, happly]
    rfl

end CommandReader

end Chip8
