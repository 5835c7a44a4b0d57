import Chip8.Instruction.Mnemonic
import Chip8.Proofs.Machine.Stepping
import Chip8.Proofs.Text.Numbers

/-!
# Mnemonics, read back

A mnemonic is a name and its operands (`wordsOf_mnemonic`). Several operations go by one name, so
the name alone does not tell what to do; the operands do, since a register, a number and a fixed
word never look alike. `ofMnemonic?` reads a text that way, and accepts exactly the mnemonics. So a
mnemonic says all about its instruction, and a machine could be run from it (`carryOut?`).
-/

namespace Chip8

/-- What an operand of a mnemonic looks like. -/
inductive Operand where
  | register (r : UInt8)
  /-- Behind a mark in hexadecimal digits, else in decimal ones. -/
  | number (n : Nat)
  /-- One of the fixed words, such as `I` and `DT`. -/
  | symbol (text : String)
  deriving DecidableEq, Repr

namespace Operand

def ofText (text : String) : Operand :=
  match text.toList with
  | 'V' :: digits => .register (.ofNat (Hex.value digits))
  | '0' :: 'x' :: digits => .number (Hex.value digits)
  | digits =>
    match Numeral.digits? digits with
    | some n => .number n
    | none => .symbol text

@[simp] theorem ofText_register (r : UInt8) : ofText (Hex.register r) = .register r := by
  rw [ofText, Hex.register, String.toList_ofList]
  simp only [Hex.value_upper, UInt8.ofNat_toNat]

@[simp] theorem ofText_byte (b : UInt8) : ofText (Hex.byte b) = .number b.toNat := by
  rw [ofText, Hex.byte, String.toList_ofList]
  simp only [Hex.value_padded]

@[simp] theorem ofText_address (a : UInt16) : ofText (Hex.address a) = .number a.toNat := by
  rw [ofText, Hex.address, String.toList_ofList]
  simp only [Hex.value_padded]

/-- A decimal number has neither the mark of a register nor that of a hexadecimal one. -/
@[simp] theorem ofText_repr (n : Nat) : ofText n.repr = .number n := by
  have hwrites := Numeral.writes_repr n
  unfold ofText
  split
  · next digits htext =>
    have hmem : 'V' ∈ n.repr.toList := by
      rw [htext]
      exact List.mem_cons_self
    have hdigit := hwrites.all_digits 'V' hmem
    exact absurd hdigit (by decide)
  · next digits htext =>
    have hmem : 'x' ∈ n.repr.toList := by
      rw [htext]
      exact List.mem_cons_of_mem _ List.mem_cons_self
    have hdigit := hwrites.all_digits 'x' hmem
    exact absurd hdigit (by decide)
  · rw [hwrites.digits?]

end Operand

namespace Instruction

/-- The words of a text: what blanks cut it into, without the commas behind the operands. -/
def wordsOf (text : String) : List String :=
  ((text.toList.filter (· != ',')).splitOn ' ').map String.ofList

/-- The name and the operands that an instruction is written with. -/
def spelling : Instruction → List String
  | .noop => ["NOP"]
  | .clear => ["CLS"]
  | .ret => ["RET"]
  | .jump addr => ["JP", Hex.address addr]
  | .call addr => ["CALL", Hex.address addr]
  | .jumpOffset addr => ["JP", "V0", Hex.address addr]
  | .skip (.equals x nn) => ["SE", Hex.register x, Hex.byte nn]
  | .skip (.differs x nn) => ["SNE", Hex.register x, Hex.byte nn]
  | .skip (.same x y) => ["SE", Hex.register x, Hex.register y]
  | .skip (.distinct x y) => ["SNE", Hex.register x, Hex.register y]
  | .skip (.keyDown x) => ["SKP", Hex.register x]
  | .skip (.keyUp x) => ["SKNP", Hex.register x]
  | .load x nn => ["LD", Hex.register x, Hex.byte nn]
  | .addByte x nn => ["ADD", Hex.register x, Hex.byte nn]
  | .combine how x y => [how.mnemonic, Hex.register x, Hex.register y]
  | .shiftRight x => ["SHR", Hex.register x]
  | .shiftLeft x => ["SHL", Hex.register x]
  | .setIndex addr => ["LD", "I", Hex.address addr]
  | .random x nn => ["RND", Hex.register x, Hex.byte nn]
  | .draw x y n => ["DRW", Hex.register x, Hex.register y, n.toNat.repr]
  | .getDelay x => ["LD", Hex.register x, "DT"]
  | .awaitKey x => ["LD", Hex.register x, "K"]
  | .setDelay x => ["LD", "DT", Hex.register x]
  | .setSound x => ["LD", "ST", Hex.register x]
  | .addIndex x => ["ADD", "I", Hex.register x]
  | .glyph x => ["LD", "F", Hex.register x]
  | .decimal x => ["LD", "B", Hex.register x]
  | .storeBlock x => ["LD", "[I]", Hex.register x]
  | .loadBlock x => ["LD", Hex.register x, "[I]"]

theorem spelling_ne_nil (i : Instruction) : i.spelling ≠ [] := by
  cases i with
  | skip condition => cases condition <;> exact List.cons_ne_nil _ _
  | _ => exact List.cons_ne_nil _ _

theorem oneWord_of_mem_spelling {i : Instruction} {word : String} (h : word ∈ i.spelling) :
    Hex.OneWord word := by
  have hall : ∀ word ∈ i.spelling, Hex.OneWord word := by
    cases i with
    | skip condition =>
      cases condition <;>
        simp only [spelling, List.forall_mem_cons, Hex.oneWord_register, Hex.oneWord_byte] <;>
        decide
    | combine how x y =>
      cases how <;>
        simp only [spelling, Combination.mnemonic, List.forall_mem_cons, Hex.oneWord_register] <;>
        decide
    | _ =>
      simp only [spelling, List.forall_mem_cons, Hex.oneWord_address, Hex.oneWord_register,
        Hex.oneWord_byte, Hex.oneWord_repr]
      decide
  exact hall word h

/-- But for the commas, a mnemonic is its words with blanks between. -/
theorem mnemonic_without_commas (i : Instruction) :
    i.mnemonic.toList.filter (· != ',') = [' '].intercalate (i.spelling.map String.toList) := by
  cases i with
  | skip condition =>
    cases condition <;>
      simp [spelling, mnemonic, Condition.mnemonic, Hex.OneWord.without_commas]
  | combine how x y =>
    cases how <;> simp [spelling, mnemonic, Combination.mnemonic, Hex.OneWord.without_commas]
  | _ => simp [spelling, mnemonic, Hex.OneWord.without_commas, -Nat.toList_repr]

/-- A mnemonic is cut into the words that it was put together from. -/
theorem wordsOf_mnemonic (i : Instruction) : wordsOf i.mnemonic = i.spelling := by
  have hblank : ∀ word ∈ i.spelling.map String.toList, ' ' ∉ word := by
    intro word hword hmem
    obtain ⟨text, htext, rfl⟩ := List.mem_map.mp hword
    exact (oneWord_of_mem_spelling htext ' ' hmem).1 rfl
  have hsome : i.spelling.map String.toList ≠ [] := by
    rw [Ne, List.map_eq_nil_iff]
    exact i.spelling_ne_nil
  rw [wordsOf, mnemonic_without_commas, List.splitOn_intercalate ' ' hblank hsome, List.map_map]
  exact (List.map_congr_left fun text _ => String.ofList_toList).trans (List.map_id _)

section Shapes

variable (operands : List Operand)

/-- An operation that takes no operands. -/
def ofNothing? (i : Instruction) : Option Instruction :=
  match operands with
  | [] => some i
  | _ => none

def ofRegister? (make : UInt8 → Instruction) : Option Instruction :=
  match operands with
  | [.register x] => some (make x)
  | _ => none

def ofRegisters? (make : UInt8 → UInt8 → Instruction) : Option Instruction :=
  match operands with
  | [.register x, .register y] => some (make x y)
  | _ => none

/-- An operation on a register and either a byte or a second register. -/
def ofSource? (makeByte makeRegister : UInt8 → UInt8 → Instruction) : Option Instruction :=
  match operands with
  | [.register x, .number nn] => some (makeByte x (.ofNat nn))
  | [.register x, .register y] => some (makeRegister x y)
  | _ => none

/-- The operations by the name of `LD`: copies between registers, memory and the timers. -/
def ofLoad? : Option Instruction :=
  match operands with
  | [.register x, .symbol "DT"] => some (.getDelay x)
  | [.register x, .symbol "K"] => some (.awaitKey x)
  | [.register x, .symbol "[I]"] => some (.loadBlock x)
  | [.symbol "I", .number addr] => some (.setIndex (.ofNat addr))
  | [.symbol "DT", .register x] => some (.setDelay x)
  | [.symbol "ST", .register x] => some (.setSound x)
  | [.symbol "F", .register x] => some (.glyph x)
  | [.symbol "B", .register x] => some (.decimal x)
  | [.symbol "[I]", .register x] => some (.storeBlock x)
  | _ => ofSource? operands .load (.combine .copy)

def ofAdd? : Option Instruction :=
  match operands with
  | [.symbol "I", .register x] => some (.addIndex x)
  | _ => ofSource? operands .addByte (.combine .add)

def ofJump? : Option Instruction :=
  match operands with
  | [.number addr] => some (.jump (.ofNat addr))
  | [.register 0, .number addr] => some (.jumpOffset (.ofNat addr))
  | _ => none

def ofCall? : Option Instruction :=
  match operands with
  | [.number addr] => some (.call (.ofNat addr))
  | _ => none

def ofRandom? : Option Instruction :=
  match operands with
  | [.register x, .number nn] => some (.random x (.ofNat nn))
  | _ => none

def ofDraw? : Option Instruction :=
  match operands with
  | [.register x, .register y, .number n] => some (.draw x y (.ofNat n))
  | _ => none

end Shapes

/-- The operation of a name with operands. -/
def ofOperands? (name : String) (operands : List Operand) : Option Instruction :=
  match name with
  | "NOP" => ofNothing? operands .noop
  | "CLS" => ofNothing? operands .clear
  | "RET" => ofNothing? operands .ret
  | "JP" => ofJump? operands
  | "CALL" => ofCall? operands
  | "SE" => ofSource? operands (fun x nn => .skip (.equals x nn)) fun x y => .skip (.same x y)
  | "SNE" =>
    ofSource? operands (fun x nn => .skip (.differs x nn)) fun x y => .skip (.distinct x y)
  | "SKP" => ofRegister? operands fun x => .skip (.keyDown x)
  | "SKNP" => ofRegister? operands fun x => .skip (.keyUp x)
  | "LD" => ofLoad? operands
  | "ADD" => ofAdd? operands
  | "OR" => ofRegisters? operands (.combine .or)
  | "AND" => ofRegisters? operands (.combine .and)
  | "XOR" => ofRegisters? operands (.combine .xor)
  | "SUB" => ofRegisters? operands (.combine .subtract)
  | "SUBN" => ofRegisters? operands (.combine .subtractFrom)
  | "SHR" => ofRegister? operands .shiftRight
  | "SHL" => ofRegister? operands .shiftLeft
  | "RND" => ofRandom? operands
  | "DRW" => ofDraw? operands
  | _ => none

/-- The operation that a list of words names. -/
def ofWords? : List String → Option Instruction
  | [] => none
  | name :: operands => ofOperands? name (operands.map Operand.ofText)

/-- What an instruction is written with names it. -/
theorem ofWords?_spelling (i : Instruction) : ofWords? i.spelling = some i := by
  have hsymbol : ∀ text ∈ ["I", "DT", "ST", "F", "B", "K", "[I]"],
      Operand.ofText text = .symbol text := by decide
  have hzero : Operand.ofText "V0" = .register 0 := by decide
  cases i with
  | skip condition =>
    cases condition <;> simp [spelling, ofWords?, ofOperands?, ofSource?, ofRegister?]
  | combine how x y =>
    cases how <;>
      simp [spelling, ofWords?, ofOperands?, ofAdd?, ofLoad?, ofSource?, ofRegisters?,
        Combination.mnemonic]
  | _ =>
    simp [spelling, ofWords?, ofOperands?, ofNothing?, ofJump?, ofCall?, ofLoad?, ofAdd?,
      ofSource?, ofRegister?, ofRandom?, ofDraw?, hsymbol, hzero]

/-- The instruction that a text is the mnemonic of. What the words name has to be written in just
this way. -/
def ofMnemonic? (text : String) : Option Instruction :=
  (ofWords? (wordsOf text)).filter fun i => i.mnemonic = text

/-- Reading accepts exactly what writing produces. -/
theorem ofMnemonic?_eq_some_iff (text : String) (i : Instruction) :
    ofMnemonic? text = some i ↔ i.mnemonic = text := by
  rw [ofMnemonic?, Option.filter_eq_some_iff, decide_eq_true_iff]
  constructor
  · rintro ⟨-, htext⟩
    exact htext
  · rintro rfl
    exact ⟨by rw [wordsOf_mnemonic, ofWords?_spelling], rfl⟩

theorem ofMnemonic?_mnemonic (i : Instruction) : ofMnemonic? i.mnemonic = some i :=
  (ofMnemonic?_eq_some_iff i.mnemonic i).mpr rfl

theorem mnemonic_injective : Function.Injective mnemonic := by
  intro i j h
  have hread : ofMnemonic? i.mnemonic = some j := by rw [h, ofMnemonic?_mnemonic]
  rw [ofMnemonic?_mnemonic] at hread
  exact Option.some.inj hread

/-- A byte is written in two digits, and read in no other way. -/
example :
    ofMnemonic? "LD V10, 0x05" = some (.load 0x10 0x05) ∧ ofMnemonic? "LD V10, 0x5" = none := by
  decide +kernel

end Instruction

namespace Machine

variable {κ ρ : Type} [Keypad κ] [RandomSource ρ]

/-- Carries out the instruction that a text is the mnemonic of. -/
def carryOut? (m : Machine κ ρ) (text : String) : Option (Turn κ ρ) :=
  (Instruction.ofMnemonic? text).map m.execute

/-- **Mnemonics are unambiguous.** Every instruction, whatever its operands, is read back from its
mnemonic, and no other text is read as it. So two instructions of one mnemonic are the same, and two
words of one mnemonic name the same instruction or none. What a step does to the machine past its
word is what the mnemonic alone makes of that machine, but for the line that logs the word. -/
theorem mnemonics_are_unambiguous :
    (∀ text i, Instruction.ofMnemonic? text = some i ↔ i.mnemonic = text) ∧
    (∀ i j : Instruction, i.mnemonic = j.mnemonic ↔ i = j) ∧
    (∀ v w : UInt16,
      (Instruction.ofWord? v).map Instruction.mnemonic =
          (Instruction.ofWord? w).map Instruction.mnemonic ↔
        Instruction.ofWord? v = Instruction.ofWord? w) ∧
    ∀ (m : Machine κ ρ) (i : Instruction), Instruction.ofWord? m.nextWord = some i →
      ∃ turn, m.fetched.carryOut? i.mnemonic = some turn ∧
        m.step = { turn with log := .step m.cpu.pc m.nextWord i :: turn.log } := by
  refine ⟨Instruction.ofMnemonic?_eq_some_iff, fun i j => Instruction.mnemonic_injective.eq_iff,
    fun v w => (Option.map_injective Instruction.mnemonic_injective).eq_iff, fun m i hw => ?_⟩
  refine ⟨m.fetched.execute i, ?_, ?_⟩
  · rw [carryOut?, Instruction.ofMnemonic?_mnemonic]
    rfl
  · rw [step_of_known hw, execute_eq]

end Machine

end Chip8
