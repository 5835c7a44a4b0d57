import Chip8.Proofs.Options.Reading
import Chip8.Proofs.Text.Numbers

/-!
# Options, written and read back

Options are written as arguments, each at most once, in any order and spelling; those that are at
their defaults may be left out. What has been read of such a command line depends on the arguments
that were given and not on their order (`Settings.ofGiven`), so in the end it is the options. The
same account of the settings tells what is wrong with a command line that repeats, lacks or
overdoes something.
-/

namespace Chip8

/-- The word that chooses a device. -/
def SoundDevice.choice : SoundDevice → String
  | beep => "beep"
  | bell => "bell"
  | mute => "mute"

/-- The word that chooses a layout. -/
def Layout.choice : Layout → String
  | conventional => "conventional"
  | literal => "literal"

namespace Options

/-- Whether a text is what the options have for an argument. -/
def Tells (o : Options) (text : List Char) : Argument → Prop
  | .rom => text = o.rom.toList
  | .speed => Numeral.Writes text o.speed.toNat
  | .sound => text = o.sound.choice.toList
  | .layout => text = o.layout.choice.toList
  | .seed => ∃ n, o.seed = some n ∧ Numeral.Writes text n.toNat
  | .keyHold => Numeral.Writes text o.keyHoldMs.toNat

/-- Whether the options have another value for an argument than the one it has by default. The
program file has none by default, and no seed is given by default. -/
def Differs (o : Options) : Argument → Prop
  | .rom => True
  | .speed => o.speed ≠ 500
  | .sound => o.sound ≠ .beep
  | .layout => o.layout ≠ .conventional
  | .seed => o.seed ≠ none
  | .keyHold => o.keyHoldMs ≠ 100

/-- The arguments write the options: each has the value of the options, none is there twice, and
none is missing that differs from its default. -/
structure WrittenAs (o : Options) (givings : List Giving) : Prop where
  tells : ∀ g ∈ givings, o.Tells g.text g.argument
  once : (givings.map (·.argument)).Nodup
  enough : ∀ argument, o.Differs argument → argument ∈ givings.map (·.argument)

end Options

namespace Argument

/-- The least number that is beyond the range of an option. -/
def limit? : Argument → Option Nat
  | .speed => some UInt32.size
  | .seed | .keyHold => some UInt64.size
  | _ => none

end Argument

namespace Giving

/-- Whether a value is a number beyond the range of its option. -/
def TooLarge (g : Giving) : Prop :=
  ∃ limit n, g.argument.limit? = some limit ∧ limit ≤ n ∧ Numeral.Writes g.text n

theorem TooLarge.argument_ne_rom {g : Giving} (h : g.TooLarge) : g.argument ≠ .rom := by
  obtain ⟨limit, n, hlimit, -⟩ := h
  intro hrom
  rw [hrom] at hlimit
  cases hlimit

end Giving

namespace Numeral

variable {text : List Char} {n : Nat}

/-- A number that is written with digits alone has no sign. -/
theorem Writes.ne_sign {sign : Char} {rest : List Char} (h : Writes (sign :: rest) n)
    (hsign : sign.isDigit = false) : False := by
  have hdigit := h.all_digits sign List.mem_cons_self
  rw [hsign] at hdigit
  cases hdigit

theorem Writes.word32? (h : Writes text n) :
    word32? text = if n < UInt32.size then some (.ofNat n) else none := by
  unfold Numeral.word32?
  split
  · exact (h.ne_sign rfl).elim
  · exact (h.ne_sign rfl).elim
  · rw [h.digits?]
    rfl

theorem Writes.word64? (h : Writes text n) :
    word64? text = if n < UInt64.size then some (.ofNat n) else none := by
  unfold Numeral.word64?
  split
  · exact (h.ne_sign rfl).elim
  · rw [h.digits?]
    rfl

end Numeral

namespace Settings

/-- The settings once some arguments have been given the values of the options. -/
def ofGiven (o : Options) (given : List Argument) : Settings where
  rom := if .rom ∈ given then some o.rom else none
  speed := if .speed ∈ given then some o.speed else none
  sound := if .sound ∈ given then some o.sound else none
  layout := if .layout ∈ given then some o.layout else none
  seed := if .seed ∈ given then o.seed else none
  keyHold := if .keyHold ∈ given then some o.keyHoldMs else none

theorem ofGiven_congr {o : Options} {given given' : List Argument}
    (h : ∀ a, a ∈ given ↔ a ∈ given') : ofGiven o given = ofGiven o given' := by
  simp only [ofGiven, h]

theorem has_ofGiven {o : Options} {given : List Argument} {argument : Argument}
    (h : argument ∉ given) : (ofGiven o given).has argument = false := by
  cases argument <;> simp [has, ofGiven, h]

/-- What the options have for an argument is there once it is given. -/
theorem has_of_tells {o : Options} {given : List Argument} {argument : Argument} {text : List Char}
    (htells : o.Tells text argument) (h : argument ∈ given) :
    (ofGiven o given).has argument = true := by
  cases argument with
  | seed =>
    obtain ⟨n, hseed, -⟩ := htells
    simp [has, ofGiven, h, hseed]
  | _ => simp [has, ofGiven, h]

theorem soundOf?_choice (device : SoundDevice) : soundOf? device.choice.toList = some device := by
  cases device <;> rfl

theorem layoutOf?_choice (layout : Layout) : layoutOf? layout.choice.toList = some layout := by
  cases layout <;> rfl

/-- A text that is what the options have is understood as that. -/
theorem set_of_tells {o : Options} {argument : Argument} {text : List Char}
    (hrom : o.rom ≠ "") (htells : o.Tells text argument) (given : List Argument) :
    (ofGiven o given).set argument text = .ok (ofGiven o (argument :: given)) := by
  cases argument with
  | rom =>
    obtain rfl : text = o.rom.toList := htells
    simp [set, ofGiven, hrom]
  | speed =>
    have hvalue : Numeral.word32? text = some o.speed := by
      rw [Numeral.Writes.word32? htells, if_pos o.speed.toNat_lt, UInt32.ofNat_toNat]
    simp [set, hvalue, orRefuse, Except.map, ofGiven]
  | sound =>
    obtain rfl : text = o.sound.choice.toList := htells
    simp [set, soundOf?_choice, orRefuse, Except.map, ofGiven]
  | layout =>
    obtain rfl : text = o.layout.choice.toList := htells
    simp [set, layoutOf?_choice, orRefuse, Except.map, ofGiven]
  | seed =>
    obtain ⟨n, hseed, hwrites⟩ := htells
    have hvalue : Numeral.word64? text = some n := by
      rw [hwrites.word64?, if_pos n.toNat_lt, UInt64.ofNat_toNat]
    simp [set, hvalue, orRefuse, Except.map, ofGiven, hseed]
  | keyHold =>
    have hvalue : Numeral.word64? text = some o.keyHoldMs := by
      rw [Numeral.Writes.word64? htells, if_pos o.keyHoldMs.toNat_lt, UInt64.ofNat_toNat]
    simp [set, hvalue, orRefuse, Except.map, ofGiven]

theorem apply_of_tells {o : Options} {g : Giving} (hrom : o.rom ≠ "")
    (htells : o.Tells g.text g.argument) {given : List Argument} (hnew : g.argument ∉ given) :
    (ofGiven o given).apply g.argument (some g.text) = .ok (ofGiven o (g.argument :: given)) := by
  simp only [apply, has_ofGiven hnew, Bool.false_eq_true, ↓reduceIte]
  exact set_of_tells hrom htells given

/-- A number beyond the range of its option is refused. -/
theorem apply_of_tooLarge {s : Settings} {g : Giving} (hlarge : g.TooLarge)
    (hnew : s.has g.argument = false) :
    s.apply g.argument (some g.text) = .error .badNumber := by
  obtain ⟨argument, text, words, hspells⟩ := g
  obtain ⟨limit, n, hlimit, hn, hwrites⟩ := hlarge
  simp only [apply, hnew, Bool.false_eq_true, ↓reduceIte]
  cases argument with
  | speed =>
    cases hlimit
    simp only [set, hwrites.word32?, Nat.not_lt.mpr hn, ↓reduceIte]
    rfl
  | seed | keyHold =>
    cases hlimit
    simp only [set, hwrites.word64?, Nat.not_lt.mpr hn, ↓reduceIte]
    rfl
  | _ => cases hlimit

/-- An argument that has been given is refused a second time, whatever its value. -/
theorem apply_again {s : Settings} {argument : Argument} (h : s.has argument = true)
    (text : List Char) : s.apply argument (some text) = .error .repeated := by
  simp only [apply, h, ↓reduceIte]

/-- A value that is given unless it is the default is the value in the end. -/
theorem getD_of_given {α : Type} {given : Prop} [Decidable given] {value standard : α}
    (h : value ≠ standard → given) :
    (if given then some value else none).getD standard = value := by
  split
  · rfl
  · next hnot => exact (not_not.mp (mt h hnot)).symm

/-- Settings that lack no value but defaults amount to the options. -/
theorem options_ofGiven {o : Options} {given : List Argument}
    (henough : ∀ argument, o.Differs argument → argument ∈ given) :
    (ofGiven o given).options = .ok o := by
  have hrom : Argument.rom ∈ given := henough .rom trivial
  have hseed : (if Argument.seed ∈ given then o.seed else none) = o.seed := by
    split
    · rfl
    · next hnot => exact (not_not.mp (mt (henough .seed) hnot)).symm
  simp only [options, ofGiven, hrom, ↓reduceIte, getD_of_given (henough .speed),
    getD_of_given (henough .sound), getD_of_given (henough .layout),
    getD_of_given (henough .keyHold), hseed]

theorem options_of_missing {o : Options} {given : List Argument} (h : .rom ∉ given) :
    (ofGiven o given).options = .error .missingProgram := by
  simp only [options, ofGiven, h, ↓reduceIte]

end Settings

namespace CommandReader

open Settings (ofGiven)

variable {r : CommandReader} {o : Options} {given : List Argument}

/-- Arguments that have the values of the options are taken one by one, in whatever order. -/
theorem Reads.givings (hrom : o.rom ≠ "") (h : r.Reads (ofGiven o given)) (givings : List Giving)
    (htells : ∀ g ∈ givings, o.Tells g.text g.argument)
    (honce : (givings.map (·.argument) ++ given).Nodup) :
    ∃ next, r.readAll (commandLine givings) = .ok next ∧
      next.Reads (ofGiven o (givings.map (·.argument) ++ given)) := by
  induction givings generalizing r given with
  | nil => exact ⟨r, rfl, h⟩
  | cons g givings ih =>
    have hmoved : ((g :: givings).map (·.argument) ++ given).Perm
        (givings.map (·.argument) ++ g.argument :: given) := List.perm_middle.symm
    have hnew : g.argument ∉ given := fun hmem =>
      (List.nodup_cons.mp honce).1 (List.mem_append_right _ hmem)
    obtain ⟨mid, hmid, hreads⟩ :=
      h.giving g (Settings.apply_of_tells hrom (htells g List.mem_cons_self) hnew)
    obtain ⟨next, hnext, hreads⟩ := ih hreads
      (fun g' hmem => htells g' (List.mem_cons_of_mem _ hmem)) (hmoved.nodup_iff.mp honce)
    refine ⟨next, ?_, ?_⟩
    · show r.readAll (g.words ++ commandLine givings) = .ok next
      rw [readAll_append, hmid]
      exact hnext
    · rw [Settings.ofGiven_congr fun a => hmoved.mem_iff (a := a)]
      exact hreads

/-- Behind arguments that have the values of the options, the reader has the settings they make. -/
theorem reads_givings (hrom : o.rom ≠ "") {givings : List Giving}
    (htells : ∀ g ∈ givings, o.Tells g.text g.argument)
    (honce : (givings.map (·.argument)).Nodup) :
    ∃ next : CommandReader, next.Reads (ofGiven o (givings.map (·.argument))) ∧
      ∀ rest, Options.parse (commandLine givings ++ rest) = next.conclude rest := by
  have hstart : ({} : CommandReader).Reads (ofGiven o []) := reads_start
  have hnew : (givings.map Giving.argument ++ []).Nodup := by rwa [List.append_nil]
  obtain ⟨next, hnext, hreads⟩ := hstart.givings hrom givings htells hnew
  rw [List.append_nil] at hreads
  refine ⟨next, hreads, fun rest => ?_⟩
  rw [parse_eq_conclude, conclude_append hnext]

/-- With nothing behind them, those settings decide what comes of the command line. -/
theorem parse_givings (hrom : o.rom ≠ "") {givings : List Giving}
    (htells : ∀ g ∈ givings, o.Tells g.text g.argument)
    (honce : (givings.map (·.argument)).Nodup) :
    Options.parse (commandLine givings) = (ofGiven o (givings.map (·.argument))).options := by
  obtain ⟨next, hreads, hparse⟩ := reads_givings hrom htells honce
  rw [← hreads.conclude_nil, ← hparse, List.append_nil]

end CommandReader

namespace Options

variable {o : Options} {givings : List Giving}

/-- Every option written out as `--name=value`, behind the program file. -/
def writtenOut (o : Options) (hdash : o.rom.toList.head? ≠ some '-') : List Giving :=
  ⟨.rom, o.rom.toList, _, .rom hdash⟩ ::
  ⟨.speed, o.speed.toNat.repr.toList, _, .longAttached rfl⟩ ::
  ⟨.sound, o.sound.choice.toList, _, .longAttached rfl⟩ ::
  ⟨.layout, o.layout.choice.toList, _, .longAttached rfl⟩ ::
  ⟨.keyHold, o.keyHoldMs.toNat.repr.toList, _, .longAttached rfl⟩ ::
  (o.seed.map fun n => ⟨.seed, n.toNat.repr.toList, _, .longAttached rfl⟩).toList

theorem writtenAs_writtenOut (hdash : o.rom.toList.head? ≠ some '-') :
    o.WrittenAs (o.writtenOut hdash) := by
  refine ⟨?_, ?_, ?_⟩
  · cases hseed : o.seed <;>
      simp [writtenOut, hseed, Tells, Numeral.writes_repr, -Nat.toList_repr]
  · cases hseed : o.seed <;> simp [writtenOut, hseed]
  · intro argument hdiffers
    cases hseed : o.seed <;> cases argument <;> simp_all [writtenOut, Differs]

theorem WrittenAs.has_given (h : o.WrittenAs givings) {argument : Argument}
    (hmem : argument ∈ givings.map (·.argument)) :
    (Settings.ofGiven o (givings.map (·.argument))).has argument = true := by
  obtain ⟨g, hg, rfl⟩ := List.mem_map.mp hmem
  exact Settings.has_of_tells (h.tells g hg) hmem

/-- A command line that writes options is read as those options. -/
theorem WrittenAs.parse_eq (hrom : o.rom ≠ "") (h : o.WrittenAs givings) :
    parse (commandLine givings) = .ok o := by
  rw [CommandReader.parse_givings hrom h.tells h.once, Settings.options_ofGiven h.enough]

/-- An option that is given already cannot be given again. -/
theorem WrittenAs.parse_again (hrom : o.rom ≠ "") (h : o.WrittenAs givings) {again : Giving}
    (hoption : again.argument ≠ .rom) (hmem : again.argument ∈ givings.map (·.argument)) :
    parse (commandLine givings ++ again.words) = .error .repeated := by
  obtain ⟨next, hreads, hparse⟩ := CommandReader.reads_givings hrom h.tells h.once
  have happly := Settings.apply_again (h.has_given hmem) again.text
  have hrefused : next.conclude (again.words ++ []) = .error .repeated :=
    hreads.refused again hoption happly [] nofun
  rw [List.append_nil] at hrefused
  rw [hparse, hrefused]

theorem WrittenAs.parse_further (hrom : o.rom ≠ "") (h : o.WrittenAs givings) {word : List Char}
    (hdash : word.head? ≠ some '-') :
    parse (commandLine givings ++ [word]) = .error .unknownArgument := by
  obtain ⟨next, hreads, hparse⟩ := CommandReader.reads_givings hrom h.tells h.once
  rw [hparse]
  exact hreads.conclude_free (h.has_given (h.enough .rom trivial)) hdash []

/-- A number that is too large is refused wherever it stands. -/
theorem WrittenAs.parse_tooLarge (hrom : o.rom ≠ "") {before after : List Giving}
    {g large : Giving} (h : o.WrittenAs (before ++ g :: after))
    (hsame : large.argument = g.argument) (hlarge : large.TooLarge) :
    parse (commandLine (before ++ large :: after)) = .error .badNumber := by
  have honce : (before.map (·.argument) ++ g.argument :: after.map (·.argument)).Nodup := by
    simpa using h.once
  obtain ⟨hbefore, -, hapart⟩ := List.nodup_append.mp honce
  obtain ⟨next, hreads, hparse⟩ := CommandReader.reads_givings hrom
    (fun g' hmem => h.tells g' (List.mem_append_left _ hmem)) hbefore
  have hnew : large.argument ∉ before.map (·.argument) := fun hmem =>
    hapart _ hmem _ List.mem_cons_self hsame
  rw [commandLine_append, hparse]
  refine hreads.refused large hlarge.argument_ne_rom
    (Settings.apply_of_tooLarge hlarge (Settings.has_ofGiven hnew)) after fun hlater => ?_
  exact Settings.has_ofGiven fun hmem => hapart _ hmem _ (List.mem_cons_of_mem _ hlater) rfl

/-- Without the program file the command line is refused. -/
theorem WrittenAs.parse_without_program (hrom : o.rom ≠ "") {before after : List Giving}
    {g : Giving} (h : o.WrittenAs (before ++ g :: after)) (hprogram : g.argument = .rom) :
    parse (commandLine (before ++ after)) = .error .missingProgram := by
  have honce : (g.argument :: (before ++ after).map (·.argument)).Nodup :=
    (List.perm_middle.map Giving.argument).nodup_iff.mp h.once
  obtain ⟨hmissing, honce⟩ := List.nodup_cons.mp honce
  have htells : ∀ g' ∈ before ++ after, o.Tells g'.text g'.argument := fun g' hmem =>
    h.tells g' (List.perm_middle.mem_iff.mpr (List.mem_cons_of_mem _ hmem))
  rw [hprogram] at hmissing
  rw [CommandReader.parse_givings hrom htells honce, Settings.options_of_missing hmissing]

/-- Options that are written as arguments, in any order and spelling, are read back. A command line
that writes them is refused once it repeats an option, has a word to spare, has a number that is too
large in place of another, or lacks the program file. -/
theorem command_line_round_trips (o : Options) (hrom : o.rom ≠ "")
    (hdash : o.rom.toList.head? ≠ some '-') :
    (∃ givings, o.WrittenAs givings) ∧
      ∀ givings, o.WrittenAs givings →
        parse (commandLine givings) = .ok o ∧
        (∀ again : Giving, again.argument ≠ .rom →
          again.argument ∈ givings.map (·.argument) →
          parse (commandLine givings ++ again.words) = .error .repeated) ∧
        (∀ word : List Char, word.head? ≠ some '-' →
          parse (commandLine givings ++ [word]) = .error .unknownArgument) ∧
        (∀ before g after, givings = before ++ g :: after →
          ∀ large : Giving, large.argument = g.argument → large.TooLarge →
            parse (commandLine (before ++ large :: after)) = .error .badNumber) ∧
        ∀ before g after, givings = before ++ g :: after → g.argument = .rom →
          parse (commandLine (before ++ after)) = .error .missingProgram := by
  refine ⟨⟨_, writtenAs_writtenOut hdash⟩, fun givings h => ⟨h.parse_eq hrom, ?_, ?_, ?_, ?_⟩⟩
  · intro again hoption hmem
    exact h.parse_again hrom hoption hmem
  · intro word hword
    exact h.parse_further hrom hword
  · rintro before g after rfl large hsame hlarge
    exact h.parse_tooLarge hrom hsame hlarge
  · rintro before g after rfl hprogram
    exact h.parse_without_program hrom hprogram

theorem command_line_round_trips_behind_speed :
    ∃ before after : List Giving, ∃ speed again large : Giving,
      commandLine (before ++ speed :: after) = ["-s700", "pong", "--seed", "7"].map (·.toList) ∧
      again.words = ["--seed=9".toList] ∧ large.words = ["--speed", "4294967296"].map (·.toList) ∧
      parse (commandLine (before ++ speed :: after)) =
        .ok { rom := "pong", speed := 700, seed := some 7 } ∧
      parse (commandLine (before ++ speed :: after) ++ again.words) = .error .repeated ∧
      parse (commandLine (before ++ large :: after)) = .error .badNumber := by
  let speed : Giving := ⟨.speed, "700".toList, ["-s700".toList], .shortJoined rfl (by decide)⟩
  let rom : Giving := ⟨.rom, "pong".toList, _, .rom (by decide)⟩
  let seed : Giving := ⟨.seed, "7".toList, _, .longApart rfl (by decide)⟩
  let again : Giving := ⟨.seed, "9".toList, _, .longAttached rfl⟩
  let large : Giving := ⟨.speed, "4294967296".toList, _, .longApart rfl (by decide)⟩
  let o : Options := { rom := "pong", speed := 700, seed := some 7 }
  have hwritten : o.WrittenAs ([] ++ speed :: [rom, seed]) := by
    refine ⟨?_, by decide, ?_⟩
    · intro g hg
      rcases hg with _ | ⟨_, _ | ⟨_, _ | ⟨_, hg⟩⟩⟩
      · exact (⟨0, by decide⟩ : Numeral.Writes "700".toList 700)
      · rfl
      · exact ⟨7, rfl, 0, rfl⟩
      · cases hg
    · intro argument hdiffers
      cases argument with
      | rom | speed | seed => decide
      | _ => exact absurd rfl hdiffers
  have hlarge : large.TooLarge := ⟨UInt32.size, 4294967296, rfl, by decide, 0, by decide⟩
  obtain ⟨hparse, hagain, -, hnumber, -⟩ :=
    (command_line_round_trips o (by decide) (by decide)).2 _ hwritten
  exact ⟨[], [rom, seed], speed, again, large, rfl, rfl, rfl, hparse,
    hagain again (by decide) (by decide), hnumber _ _ _ rfl large rfl hlarge⟩

end Options

end Chip8
