import Chip8.Instruction.Decode

/-!
# Which words name which instruction

The decoder looks a word up group by group. Here the table is read backwards: `Fields.Encodes` lists
for each instruction the fields of its words, and `ofWord?_eq_some_iff` says that the decoder
answers exactly by that list. `ofWord?_eq_none_iff` lists the words that no group knows.
-/

namespace Chip8

namespace Fields

private theorem toNat_nibble (w : UInt16) : (w &&& 0x000f).toUInt8.toNat = w.toNat % 0x10 := by
  have h := Nat.and_two_pow_sub_one_eq_mod w.toNat 4
  have hmask : (w &&& 0x000f).toNat = w.toNat % 0x10 := (UInt16.toNat_and w 0x000f).trans h
  rw [UInt16.toNat_toUInt8, hmask]
  omega

/-- The group is the top nibble. -/
theorem group_toNat (w : UInt16) : (ofWord w).group.toNat = w.toNat / 0x1000 := by
  have hw := w.toNat_lt
  have hshift : (w >>> 12).toNat = w.toNat / 0x1000 := Nat.shiftRight_eq_div_pow w.toNat 12
  rw [ofWord, UInt16.toNat_toUInt8, hshift]
  omega

/-- The short operand is the low byte. -/
theorem nn_toNat (w : UInt16) : (ofWord w).nn.toNat = w.toNat % 0x100 :=
  UInt16.toNat_toUInt8 w

theorem n_toNat (w : UInt16) : (ofWord w).n.toNat = w.toNat % 0x10 :=
  toNat_nibble w

/-- The first register number is the second nibble. -/
theorem x_toNat (w : UInt16) : (ofWord w).x.toNat = w.toNat / 0x100 % 0x10 := by
  have hshift : (w >>> 8).toNat = w.toNat / 0x100 := Nat.shiftRight_eq_div_pow w.toNat 8
  rw [ofWord, toNat_nibble, hshift]

theorem y_toNat (w : UInt16) : (ofWord w).y.toNat = w.toNat / 0x10 % 0x10 := by
  have hshift : (w >>> 4).toNat = w.toNat / 0x10 := Nat.shiftRight_eq_div_pow w.toNat 4
  rw [ofWord, toNat_nibble, hshift]

/-- The address is the low twelve bits. -/
theorem nnn_toNat (w : UInt16) : (ofWord w).nnn.toNat = w.toNat % 0x1000 :=
  (UInt16.toNat_and w 0x0fff).trans (Nat.and_two_pow_sub_one_eq_mod w.toNat 12)

theorem x_eq (w : UInt16) : (ofWord w).x = .ofNat (w.toNat / 0x100 % 0x10) := by
  rw [← x_toNat, UInt8.ofNat_toNat]

theorem y_eq (w : UInt16) : (ofWord w).y = .ofNat (w.toNat / 0x10 % 0x10) := by
  rw [← y_toNat, UInt8.ofNat_toNat]

theorem group_eq_iff (w : UInt16) (g : UInt8) :
    (ofWord w).group = g ↔ w.toNat / 0x1000 = g.toNat := by
  rw [← UInt8.toNat_inj, group_toNat]

theorem nn_eq_iff (w : UInt16) (b : UInt8) :
    (ofWord w).nn = b ↔ w.toNat % 0x100 = b.toNat := by
  rw [← UInt8.toNat_inj, nn_toNat]

theorem n_eq_iff (w : UInt16) (b : UInt8) :
    (ofWord w).n = b ↔ w.toNat % 0x10 = b.toNat := by
  rw [← UInt8.toNat_inj, n_toNat]

theorem group_lt (w : UInt16) : (ofWord w).group < 16 := by
  have hw := w.toNat_lt
  rw [UInt8.lt_iff_toNat_lt, group_toNat]
  exact Nat.div_lt_of_lt_mul hw

/-- The low nibble that selects a two-register operation. -/
def selector : Combination → UInt8
  | .copy => 0x0
  | .or => 0x1
  | .and => 0x2
  | .xor => 0x3
  | .add => 0x4
  | .subtract => 0x5
  | .subtractFrom => 0x7

/-- Whether the fields are those of a word for the instruction. -/
def Encodes (f : Fields) : Instruction → Prop
  | .noop =>
    (f.group = 0x0 ∧ f.nn ∉ [0xe0, 0xee]) ∨
      (f.group = 0x8 ∧ f.n ∉ [0x0, 0x1, 0x2, 0x3, 0x4, 0x5, 0x6, 0x7, 0xe]) ∨
      (f.group = 0x9 ∧ f.n ≠ 0x0)
  | .clear => f.group = 0x0 ∧ f.nn = 0xe0
  | .ret => f.group = 0x0 ∧ f.nn = 0xee
  | .jump addr => f.group = 0x1 ∧ addr = f.nnn
  | .call addr => f.group = 0x2 ∧ addr = f.nnn
  | .jumpOffset addr => f.group = 0xb ∧ addr = f.nnn
  | .skip (.equals x nn) => f.group = 0x3 ∧ x = f.x ∧ nn = f.nn
  | .skip (.differs x nn) => f.group = 0x4 ∧ x = f.x ∧ nn = f.nn
  | .skip (.same x y) => f.group = 0x5 ∧ x = f.x ∧ y = f.y
  | .skip (.distinct x y) => f.group = 0x9 ∧ f.n = 0x0 ∧ x = f.x ∧ y = f.y
  | .skip (.keyDown x) => f.group = 0xe ∧ f.nn = 0x9e ∧ x = f.x
  | .skip (.keyUp x) => f.group = 0xe ∧ f.nn = 0xa1 ∧ x = f.x
  | .load x nn => f.group = 0x6 ∧ x = f.x ∧ nn = f.nn
  | .addByte x nn => f.group = 0x7 ∧ x = f.x ∧ nn = f.nn
  | .combine how x y => f.group = 0x8 ∧ f.n = selector how ∧ x = f.x ∧ y = f.y
  | .shiftRight x => f.group = 0x8 ∧ f.n = 0x6 ∧ x = f.x
  | .shiftLeft x => f.group = 0x8 ∧ f.n = 0xe ∧ x = f.x
  | .setIndex addr => f.group = 0xa ∧ addr = f.nnn
  | .random x nn => f.group = 0xc ∧ x = f.x ∧ nn = f.nn
  | .draw x y n => f.group = 0xd ∧ x = f.x ∧ y = f.y ∧ n = f.n
  | .getDelay x => f.group = 0xf ∧ f.nn = 0x07 ∧ x = f.x
  | .awaitKey x => f.group = 0xf ∧ f.nn = 0x0a ∧ x = f.x
  | .setDelay x => f.group = 0xf ∧ f.nn = 0x15 ∧ x = f.x
  | .setSound x => f.group = 0xf ∧ f.nn = 0x18 ∧ x = f.x
  | .addIndex x => f.group = 0xf ∧ f.nn = 0x1e ∧ x = f.x
  | .glyph x => f.group = 0xf ∧ f.nn = 0x29 ∧ x = f.x
  | .decimal x => f.group = 0xf ∧ f.nn = 0x33 ∧ x = f.x
  | .storeBlock x => f.group = 0xf ∧ f.nn = 0x55 ∧ x = f.x
  | .loadBlock x => f.group = 0xf ∧ f.nn = 0x65 ∧ x = f.x

end Fields

namespace Instruction

variable {f : Fields} {i : Instruction}

private theorem encodes_ofSystem (h : f.group = 0x0) : f.Encodes (ofSystem f.nn) := by
  unfold ofSystem
  split <;> simp_all [Fields.Encodes]

private theorem encodes_ofArithmetic (h : f.group = 0x8) :
    f.Encodes (ofArithmetic f.x f.y f.n) := by
  unfold ofArithmetic
  split <;> simp_all [Fields.Encodes, Fields.selector]

private theorem encodes_of_ofKey (h : f.group = 0xe) (hi : ofKey f.x f.nn = some i) :
    f.Encodes i := by
  unfold ofKey at hi
  split at hi <;> cases hi <;> simp_all [Fields.Encodes]

private theorem encodes_of_ofDevice (h : f.group = 0xf) (hi : ofDevice f.x f.nn = some i) :
    f.Encodes i := by
  unfold ofDevice at hi
  split at hi <;> cases hi <;> simp_all [Fields.Encodes]

/-- What the decoder answers is on the list. The group is a nibble, so one of the sixteen matches. -/
theorem encodes_of_ofFields (hg : f.group < 16) (hi : ofFields f = some i) : f.Encodes i := by
  unfold ofFields at hi
  split at hi
  case h_1 h => cases hi; exact encodes_ofSystem h
  case h_9 h => cases hi; exact encodes_ofArithmetic h
  case h_10 h => cases hi; split <;> simp_all [Fields.Encodes]
  case h_15 h => exact encodes_of_ofKey h hi
  case h_16 h => exact encodes_of_ofDevice h hi
  case h_17 => grind
  all_goals
    rename_i h
    cases hi
    simp_all [Fields.Encodes]

/-- What is on the list is what the decoder answers. -/
theorem ofFields_of_encodes (h : f.Encodes i) : ofFields f = some i := by
  cases i with
  | noop =>
    obtain ⟨hg, hn⟩ | ⟨hg, hn⟩ | ⟨hg, hn⟩ := h
    · simp only [ofFields, hg, ofSystem]
      split <;> simp_all
    · simp only [ofFields, hg, ofArithmetic]
      split <;> simp_all
    · simp [ofFields, hg, hn]
  | skip condition => cases condition <;> simp_all [Fields.Encodes, ofFields, ofKey]
  | combine how x y =>
    obtain ⟨hg, hn, rfl, rfl⟩ := h
    cases how <;> simp [ofFields, hg, ofArithmetic, hn, Fields.selector]
  | _ => simp_all [Fields.Encodes, ofFields, ofSystem, ofArithmetic, ofDevice]

/-- The decoder answers exactly by the list. -/
theorem ofWord?_eq_some_iff (w : UInt16) (i : Instruction) :
    ofWord? w = some i ↔ (Fields.ofWord w).Encodes i :=
  ⟨encodes_of_ofFields (Fields.group_lt w), ofFields_of_encodes⟩

/-- A word names one instruction at most. -/
theorem forall_of_ofWord? {w : UInt16} {property : Instruction → Prop} (h : ofWord? w = some i)
    (hi : property i) (j : Instruction) (hj : ofWord? w = some j) : property j := by
  obtain rfl := Option.some.inj (h.symm.trans hj)
  exact hi

private theorem ofFields_eq_none_iff (f : Fields) :
    ofFields f = none ↔
      (f.group = 0xe ∧ f.nn ∉ [0x9e, 0xa1]) ∨
        (f.group = 0xf ∧
          f.nn ∉ [0x07, 0x0a, 0x15, 0x18, 0x1e, 0x29, 0x33, 0x55, 0x65]) := by
  unfold ofFields
  split
  case h_15 =>
    unfold ofKey
    split <;> simp_all
  case h_16 =>
    unfold ofDevice
    split <;> simp_all
  all_goals simp_all

/-- Only groups E and F refuse words, by their low byte. -/
theorem ofWord?_eq_none_iff (w : UInt16) :
    ofWord? w = none ↔
      (w.toNat / 0x1000 = 0xe ∧ w.toNat % 0x100 ∉ [0x9e, 0xa1]) ∨
        (w.toNat / 0x1000 = 0xf ∧
          w.toNat % 0x100 ∉ [0x07, 0x0a, 0x15, 0x18, 0x1e, 0x29, 0x33, 0x55, 0x65]) := by
  rw [ofWord?, ofFields_eq_none_iff]
  simp only [List.mem_cons, List.not_mem_nil, or_false, Fields.group_eq_iff, Fields.nn_eq_iff]
  rfl

/-- Every word of group 2 is a call of the address in its low twelve bits. -/
theorem ofWord?_of_call {w : UInt16} (hg : w.toNat / 0x1000 = 0x2) :
    ofWord? w = some (.call (w &&& 0x0fff)) :=
  (ofWord?_eq_some_iff w _).mpr ⟨(Fields.group_eq_iff w 0x2).mpr hg, rfl⟩

theorem ofWord?_of_ret {w : UInt16} (hg : w.toNat / 0x1000 = 0x0) (hn : w.toNat % 0x100 = 0xee) :
    ofWord? w = some .ret :=
  (ofWord?_eq_some_iff w _).mpr
    ⟨(Fields.group_eq_iff w 0x0).mpr hg, (Fields.nn_eq_iff w 0xee).mpr hn⟩

theorem ofWord?_of_awaitKey {w : UInt16} (hg : w.toNat / 0x1000 = 0xf)
    (hn : w.toNat % 0x100 = 0x0a) : ofWord? w = some (.awaitKey (Fields.ofWord w).x) :=
  (ofWord?_eq_some_iff w _).mpr
    ⟨(Fields.group_eq_iff w 0xf).mpr hg, (Fields.nn_eq_iff w 0x0a).mpr hn, rfl⟩

/-- A decoded sprite has at most fifteen rows. -/
theorem rows_of_ofWord? {w : UInt16} {x y n : UInt8} (h : ofWord? w = some (.draw x y n)) :
    n.toNat < 16 := by
  obtain ⟨-, -, -, rfl⟩ := (ofWord?_eq_some_iff w _).mp h
  rw [Fields.n_toNat]
  exact Nat.mod_lt _ (by decide)

/-- A decoded register block ends at one of the sixteen registers. -/
theorem last_of_ofWord? {w : UInt16} {x : UInt8} (h : ofWord? w = some (.storeBlock x)) :
    x.toNat < 16 := by
  obtain ⟨-, -, rfl⟩ := (ofWord?_eq_some_iff w _).mp h
  rw [Fields.x_toNat]
  exact Nat.mod_lt _ (by decide)

end Instruction

end Chip8
