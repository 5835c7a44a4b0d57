import Mathlib.Data.List.TakeDrop
import Chip8.Options.Numeral
import Chip8.Text.Hex

/-!
# Written numbers, read back

Hexadecimal digits of either case and any number of leading zeros have one value, and it is the
number that they were written for. The characters that hold a text together, blanks and commas, are
no digits, so a written number can be cut out of a text at them. Decimal digits are read by
`Numeral.digits?`, which takes back what `Nat.repr` writes.
-/

namespace Chip8

/-- A text is cut at its first separator. -/
theorem span_append_cons {p : Char → Bool} {first : List Char} {separator : Char}
    (hfirst : ∀ c ∈ first, p c = true) (hseparator : p separator = false) (rest : List Char) :
    (first ++ separator :: rest).span p = (first, separator :: rest) := by
  have hstop : ¬ p separator = true := Bool.not_eq_true _ ▸ hseparator
  rw [List.span_eq_takeWhile_dropWhile, List.takeWhile_append_of_pos hfirst,
    List.dropWhile_append_of_pos hfirst, List.takeWhile_cons_of_neg hstop,
    List.dropWhile_cons_of_neg hstop, List.append_nil]

namespace Hex

/-- The value of a hexadecimal digit of either case. -/
def digitValue (c : Char) : Nat :=
  if c.isDigit then c.toNat - '0'.toNat else c.toLower.toNat - 'a'.toNat + 10

/-- The number that hexadecimal digits stand for, the highest first. -/
def value (digits : List Char) : Nat :=
  digits.foldl (fun n c => 16 * n + digitValue c) 0

theorem digitValue_digitChar : ∀ d, d < 16 → digitValue d.digitChar = d := by decide

theorem digitValue_toUpper : ∀ d, d < 16 → digitValue d.digitChar.toUpper = d := by decide

theorem value_concat (digits : List Char) (c : Char) :
    value (digits ++ [c]) = 16 * value digits + digitValue c := by
  rw [value, List.foldl_append]
  rfl

theorem value_zeros (n : Nat) (digits : List Char) :
    value (List.replicate n '0' ++ digits) = value digits := by
  induction n with
  | zero => rfl
  | succ n ih => exact ih

/-- Digits that are changed one by one, each keeping its value, keep their value together. -/
theorem value_map_toDigits {f : Char → Char}
    (hf : ∀ d, d < 16 → digitValue (f d.digitChar) = d) (n : Nat) :
    value ((Nat.toDigits 16 n).map f) = n := by
  induction n using Nat.strongRecOn with
  | ind n ih =>
    rcases Nat.lt_or_ge n 16 with hn | hn
    · rw [Nat.toDigits_of_lt_base hn]
      show 16 * 0 + digitValue (f n.digitChar) = n
      rw [hf n hn]
      omega
    · have hlast : digitValue (f (n % 16).digitChar) = n % 16 := hf _ (Nat.mod_lt _ (by decide))
      rw [Nat.toDigits_of_base_le (by decide) hn, List.map_append, List.map_singleton, value_concat,
        ih (n / 16) (by omega), hlast]
      omega

theorem value_padded (width n : Nat) : value (padded width n) = n := by
  have hdigits := value_map_toDigits (f := id) digitValue_digitChar n
  rw [List.map_id] at hdigits
  rw [padded, value_zeros, hdigits]

theorem value_upper (width n : Nat) : value ((padded width n).map Char.toUpper) = n := by
  have hzero : '0'.toUpper = '0' := by decide
  rw [padded, List.map_append, List.map_replicate, hzero, value_zeros]
  exact value_map_toDigits digitValue_toUpper n

/-- The characters of a written number are digits. -/
theorem mem_toDigits {n : Nat} {c : Char} (hc : c ∈ Nat.toDigits 16 n) :
    ∃ d, d < 16 ∧ c = d.digitChar := by
  induction n using Nat.strongRecOn with
  | ind n ih =>
    rcases Nat.lt_or_ge n 16 with hn | hn
    · rw [Nat.toDigits_of_lt_base hn, List.mem_singleton] at hc
      exact ⟨n, hn, hc⟩
    · rw [Nat.toDigits_of_base_le (by decide) hn, List.mem_append, List.mem_singleton] at hc
      rcases hc with hfront | hlast
      · exact ih (n / 16) (by omega) hfront
      · exact ⟨n % 16, Nat.mod_lt _ (by decide), hlast⟩

theorem mem_padded {width n : Nat} {c : Char} (hc : c ∈ padded width n) :
    ∃ d, d < 16 ∧ c = d.digitChar := by
  rw [padded, List.mem_append] at hc
  rcases hc with hzero | hdigit
  · exact ⟨0, by decide, List.eq_of_mem_replicate hzero⟩
  · exact mem_toDigits hdigit

/-- A text that holds no blank and no comma, so that it can be cut out of a longer one at them. -/
def OneWord (text : String) : Prop :=
  ∀ c ∈ text.toList, c ≠ ' ' ∧ c ≠ ','

instance (text : String) : Decidable (OneWord text) :=
  List.decidableBAll (fun c => c ≠ ' ' ∧ c ≠ ',') text.toList

theorem digitChar_ne : ∀ d, d < 16 → d.digitChar ≠ ' ' ∧ d.digitChar ≠ ',' := by decide

theorem toUpper_digitChar_ne :
    ∀ d, d < 16 → d.digitChar.toUpper ≠ ' ' ∧ d.digitChar.toUpper ≠ ',' := by decide

theorem ne_of_mem_padded {width n : Nat} {c : Char} (hc : c ∈ padded width n) :
    c ≠ ' ' ∧ c ≠ ',' := by
  obtain ⟨d, hd, rfl⟩ := mem_padded hc
  exact digitChar_ne d hd

theorem oneWord_word (w : UInt16) : OneWord (word w) := by
  intro c hc
  rw [word, String.toList_ofList] at hc
  exact ne_of_mem_padded hc

private theorem oneWord_marked (width n : Nat) :
    OneWord (String.ofList ('0' :: 'x' :: padded width n)) := by
  intro c hc
  rw [String.toList_ofList, List.mem_cons, List.mem_cons] at hc
  rcases hc with rfl | rfl | hdigit
  · decide
  · decide
  · exact ne_of_mem_padded hdigit

theorem OneWord.without_commas {text : String} (h : OneWord text) :
    text.toList.filter (· != ',') = text.toList :=
  List.filter_eq_self.mpr fun c hc => bne_iff_ne.mpr (h c hc).2

@[simp] theorem oneWord_address (a : UInt16) : OneWord (address a) :=
  oneWord_marked 3 a.toNat

@[simp] theorem oneWord_byte (b : UInt8) : OneWord (byte b) :=
  oneWord_marked 2 b.toNat

@[simp] theorem oneWord_register (r : UInt8) : OneWord (register r) := by
  intro c hc
  rw [register, String.toList_ofList, List.mem_cons, List.mem_map] at hc
  rcases hc with rfl | ⟨digit, hdigit, rfl⟩
  · decide
  · obtain ⟨d, hd, rfl⟩ := mem_padded hdigit
    exact toUpper_digitChar_ne d hd

@[simp] theorem oneWord_repr (n : Nat) : OneWord n.repr := by
  intro c hc
  rw [Nat.toList_repr] at hc
  have hdigit : c.isDigit = true := Nat.isDigit_of_mem_toDigits (by decide) (by decide) hc
  constructor
  · rintro rfl
    exact absurd hdigit (by decide)
  · rintro rfl
    exact absurd hdigit (by decide)

end Hex

namespace Numeral

/-- Decimal digits that stand for a number: the ones it is written with, behind any zeros. -/
def Writes (text : List Char) (n : Nat) : Prop :=
  ∃ zeros, text = List.replicate zeros '0' ++ n.repr.toList

theorem writes_repr (n : Nat) : Writes n.repr.toList n :=
  ⟨0, rfl⟩

theorem Writes.all_digits {text : List Char} {n : Nat} (h : Writes text n) :
    ∀ c ∈ text, c.isDigit = true := by
  obtain ⟨zeros, rfl⟩ := h
  intro c hc
  rw [List.mem_append, Nat.toList_repr] at hc
  rcases hc with hzero | hdigit
  · obtain rfl := List.eq_of_mem_replicate hzero
    rfl
  · exact Nat.isDigit_of_mem_toDigits (by decide) (by decide) hdigit

theorem Writes.ne_nil {text : List Char} {n : Nat} (h : Writes text n) : text ≠ [] := by
  obtain ⟨zeros, rfl⟩ := h
  rw [Nat.toList_repr]
  exact List.append_ne_nil_of_right_ne_nil _ Nat.toDigits_ne_nil

private theorem ofDigitChars_zeros (zeros : Nat) (digits : List Char) :
    Nat.ofDigitChars 10 (List.replicate zeros '0' ++ digits) 0 = Nat.ofDigitChars 10 digits 0 := by
  induction zeros with
  | zero => rfl
  | succ zeros ih => exact ih

theorem Writes.value_eq {text : List Char} {n : Nat} (h : Writes text n) :
    Nat.ofDigitChars 10 text 0 = n := by
  obtain ⟨zeros, rfl⟩ := h
  rw [ofDigitChars_zeros, Nat.toList_repr, Nat.ofDigitChars_toDigits (by decide) (by decide)]

/-- What a number is written with is read as that number. -/
theorem Writes.digits? {text : List Char} {n : Nat} (h : Writes text n) :
    digits? text = some n := by
  have hall : text.all Char.isDigit = true := List.all_eq_true.mpr h.all_digits
  have hsome : text.isEmpty = false := List.isEmpty_eq_false_iff.mpr h.ne_nil
  rw [Numeral.digits?, hall, hsome, h.value_eq]
  rfl

end Numeral

end Chip8
