import Chip8.Log
import Chip8.Proofs.Text.Numbers

/-!
# Lines of a trace, read back

A step is logged as an address, a word and a mnemonic with two blanks between. Addresses and words
hold no blank, so a line is cut at its first two, however many digits the address takes, and reading
accepts exactly what is logged.
-/

namespace Chip8

/-- What a line of a trace says. -/
structure TraceLine where
  address : UInt16
  word : UInt16
  mnemonic : String
  deriving DecidableEq, Repr

namespace TraceLine

def text (t : TraceLine) : String :=
  Hex.address t.address ++ "  " ++ Hex.word t.word ++ "  " ++ t.mnemonic

/-- What the parts of a text say, cut at the first two gaps. -/
def ofParts (text : List Char) : TraceLine :=
  let (address, behind) := text.span (· != ' ')
  let (word, last) := (behind.drop 2).span (· != ' ')
  { address := .ofNat (Hex.value (address.drop 2))
    word := .ofNat (Hex.value word)
    mnemonic := String.ofList (last.drop 2) }

/-- The line that a text is. Its parts have to be written in just this way. -/
def ofText? (text : String) : Option TraceLine :=
  (some (ofParts text.toList)).filter fun t => t.text = text

/-- The first part of a text is cut off at the gap behind it. -/
private theorem span_gap {first : String} (hfirst : Hex.OneWord first) (rest : List Char) :
    (first.toList ++ ' ' :: ' ' :: rest).span (· != ' ') = (first.toList, ' ' :: ' ' :: rest) :=
  span_append_cons (fun c hc => bne_iff_ne.mpr (hfirst c hc).1) rfl _

theorem toList_text (t : TraceLine) :
    t.text.toList = (Hex.address t.address).toList ++ ' ' :: ' ' ::
      ((Hex.word t.word).toList ++ ' ' :: ' ' :: t.mnemonic.toList) := by
  simp [text]

/-- What is written is cut into the parts that it was put together from. -/
theorem ofParts_text (t : TraceLine) : ofParts t.text.toList = t := by
  have haddress : Hex.value ((Hex.address t.address).toList.drop 2) = t.address.toNat := by
    rw [Hex.address, String.toList_ofList]
    exact Hex.value_padded 3 t.address.toNat
  have hword : Hex.value (Hex.word t.word).toList = t.word.toNat := by
    rw [Hex.word, String.toList_ofList]
    exact Hex.value_padded 4 t.word.toNat
  rw [toList_text, ofParts, span_gap (Hex.oneWord_address t.address)]
  simp only [List.drop_succ_cons, List.drop_zero, span_gap (Hex.oneWord_word t.word), haddress,
    hword, UInt16.ofNat_toNat, String.ofList_toList]

/-- Reading accepts exactly what is logged. -/
theorem ofText?_eq_some_iff (text : String) (t : TraceLine) :
    ofText? text = some t ↔ t.text = text := by
  rw [ofText?, Option.filter_eq_some_iff, decide_eq_true_iff, Option.some_inj]
  constructor
  · rintro ⟨-, htext⟩
    exact htext
  · rintro rfl
    exact ⟨ofParts_text t, rfl⟩

end TraceLine

end Chip8
