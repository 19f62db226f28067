import ChipEight.Instruction.Encoding

namespace ChipEight

namespace Instruction

/-- The hexadecimal digit of a word that has `k` digits behind it. -/
def digit (w : UInt16) (k : Nat) : Nat := w.toNat >>> (4 * k) % 16

theorem digit_lt (w : UInt16) (k : Nat) : digit w k < 16 := Nat.mod_lt _ (by decide)

theorem digit_and (w v : UInt16) (k : Nat) : digit (w &&& v) k = digit w k &&& digit v k := by
  simp only [digit, UInt16.toNat_and, Nat.shiftRight_and_distrib]
  exact Nat.and_mod_two_pow (n := 4)

theorem toNat_eq_digits (w : UInt16) :
    w.toNat = 4096 * digit w 3 + 256 * digit w 2 + 16 * digit w 1 + digit w 0 := by
  have hw := w.toNat_lt
  simp only [digit]
  omega

theorem eq_of_digit_eq {w v : UInt16} (h : ∀ k < 4, digit w k = digit v k) : w = v := by
  apply UInt16.toNat_inj.mp
  rw [toNat_eq_digits w, toNat_eq_digits v, h 3 (by decide), h 2 (by decide), h 1 (by decide),
    h 0 (by decide)]

theorem and_shiftRight_eq_digit (w : UInt16) (k : Nat) :
    (w.toNat &&& 15 <<< (4 * k)) >>> (4 * k) = digit w k := by
  rw [Nat.shiftRight_and_distrib, Nat.shiftLeft_shiftRight]
  exact Nat.and_two_pow_sub_one_eq_mod _ 4

theorem toNat_and_secondDigit (w : UInt16) : ((w &&& 0x0F00) >>> 8).toNat = digit w 2 := by
  rw [UInt16.toNat_shiftRight, UInt16.toNat_and]
  exact and_shiftRight_eq_digit w 2

theorem toNat_and_thirdDigit (w : UInt16) : ((w &&& 0x00F0) >>> 4).toNat = digit w 1 := by
  rw [UInt16.toNat_shiftRight, UInt16.toNat_and]
  exact and_shiftRight_eq_digit w 1

theorem val_xField (w : UInt16) : (xField w).val = digit w 2 := by
  rw [xField, Fin.val_ofNat, toNat_and_secondDigit, Nat.mod_eq_of_lt (digit_lt w 2)]

theorem val_yField (w : UInt16) : (yField w).val = digit w 1 := by
  rw [yField, Fin.val_ofNat, toNat_and_thirdDigit, Nat.mod_eq_of_lt (digit_lt w 1)]

theorem val_countField (w : UInt16) : (countField w).val = digit w 0 := by
  have h : (w &&& 0x000F).toNat = digit w 0 := and_shiftRight_eq_digit w 0
  rw [countField, Fin.val_ofNat, h, Nat.mod_eq_of_lt (digit_lt w 0)]

theorem val_addressField (w : UInt16) : (addressField w).val = w.toNat % 4096 := by
  have h : (w &&& 0x0FFF).toNat = w.toNat % 4096 := Nat.and_two_pow_sub_one_eq_mod _ 12
  rw [addressField, Fin.val_ofNat, h, Nat.mod_mod]

theorem toNat_byteField (w : UInt16) : (byteField w).toNat = w.toNat % 256 := by
  have h : (w &&& 0x00FF).toNat = w.toNat % 256 := Nat.and_two_pow_sub_one_eq_mod _ 8
  rw [byteField, UInt16.toNat_toUInt8, h]
  exact Nat.mod_mod _ _

theorem digit_mod (w : UInt16) {n k q : Nat} (h : n = 16 <<< (4 * k) * q) :
    (w.toNat % n) >>> (4 * k) % 16 = digit w k := by
  rw [h, digit, Nat.shiftRight_eq_div_pow, Nat.shiftRight_eq_div_pow, Nat.shiftLeft_eq,
    Nat.mul_comm 16, Nat.mul_assoc, Nat.mod_mul_right_div_self, Nat.mod_mul_right_mod]

theorem digit_addressField (w : UInt16) {k : Nat} (hk : k < 3) :
    (addressField w).val >>> (4 * k) % 16 = digit w k := by
  have hn : ∀ k < 3, 4096 = 16 <<< (4 * k) * (256 >>> (4 * k)) := by decide
  rw [val_addressField, digit_mod w (hn k hk)]

theorem digit_byteField (w : UInt16) {k : Nat} (hk : k < 2) :
    (byteField w).toNat >>> (4 * k) % 16 = digit w k := by
  have hn : ∀ k < 2, 256 = 16 <<< (4 * k) * (16 >>> (4 * k)) := by decide
  rw [toNat_byteField, digit_mod w (hn k hk)]

theorem wordOf_eq (upper lower : UInt8) :
    wordOf upper lower = UInt16.ofNat (256 * upper.toNat + lower.toNat) := by
  have hu := upper.toNat_lt
  have hl := lower.toNat_lt
  have h := Nat.two_pow_add_eq_or_of_lt (i := 8) hl upper.toNat
  apply UInt16.toNat_inj.mp
  simp [wordOf, Nat.shiftLeft_eq] at h ⊢
  rw [Nat.mod_eq_of_lt (by omega), Nat.mod_eq_of_lt (by omega), Nat.mul_comm, ← h]

end Instruction

namespace Opcode

open Instruction

theorem mem_opcodes (o : Opcode) : o ∈ table.map Row.opcode := by
  cases o <;> decide

instance {p : Opcode → Prop} [DecidablePred p] : Decidable (∀ o, p o) :=
  decidable_of_decidable_of_iff (p := ∀ o ∈ table.map Row.opcode, p o)
    ⟨fun h o => h o (mem_opcodes o), fun h o _ => h o⟩

def face (d : Nat) : Char := d.digitChar.toUpper

def operandLetters : List Char := ['n', 'k', 'x', 'y']

def symbol (o : Opcode) (k : Nat) : Char := o.shape.toList.reverse.getD k ' '

/-- A word fits a shape if, wherever a digit is prescribed, it has this digit. -/
def Fits (o : Opcode) (w : UInt16) : Prop :=
  ∀ k < 4, o.symbol k ∈ operandLetters ∨ o.symbol k = face (digit w k)

instance (o : Opcode) (w : UInt16) : Decidable (o.Fits w) :=
  inferInstanceAs (Decidable (∀ k < 4, o.symbol k ∈ operandLetters ∨ o.symbol k = face (digit w k)))

theorem face_injective {d e : Nat} (hd : d < 16) (he : e < 16) (h : face d = face e) : d = e := by
  have hf : ∀ a b : Fin 16, face a = face b → a = b := by decide
  exact congrArg Fin.val (hf ⟨d, hd⟩ ⟨e, he⟩ h)

theorem face_not_mem_operandLetters {d : Nat} (hd : d < 16) : face d ∉ operandLetters := by
  have hf : ∀ a : Fin 16, face a ∉ operandLetters := by decide
  exact hf ⟨d, hd⟩

/-- The row says what the shape of its operation says: it masks out the operands and nothing else,
and its pattern has the digits that are prescribed. -/
def Row.Agrees (row : Row) : Prop :=
  ∀ k < 4, (digit row.mask k = 0 ∧ digit row.pattern k = 0 ∧ row.opcode.symbol k ∈ operandLetters) ∨
    (digit row.mask k = 15 ∧ row.opcode.symbol k = face (digit row.pattern k))

instance (row : Row) : Decidable row.Agrees :=
  inferInstanceAs (Decidable (∀ k < 4, _ ∨ _))

theorem agrees_of_mem_table : ∀ row ∈ table, row.Agrees := by decide

theorem Row.Agrees.covers_iff {row : Row} (h : row.Agrees) (w : UInt16) :
    row.covers w = true ↔ row.opcode.Fits w := by
  have hdigit : ∀ k < 4, (digit (w &&& row.mask) k = digit row.pattern k ↔
      row.opcode.symbol k ∈ operandLetters ∨ row.opcode.symbol k = face (digit w k)) := by
    intro k hk
    have hw := digit_lt w k
    have hp := digit_lt row.pattern k
    rw [digit_and]
    rcases h k hk with ⟨hm, hz, hs⟩ | ⟨hm, hs⟩
    · simp [hm, hz, hs]
    · have hn := face_not_mem_operandLetters hp
      rw [hm, hs, Nat.and_two_pow_sub_one_of_lt_two_pow (n := 4) hw]
      constructor
      · intro he
        exact .inr (congrArg face he.symm)
      · rintro (he | he)
        · exact absurd he hn
        · exact (face_injective hp hw he).symm
  simp only [covers, beq_iff_eq]
  constructor
  · intro he k hk
    rw [← hdigit k hk, he]
  · intro hf
    exact eq_of_digit_eq fun k hk => (hdigit k hk).mpr (hf k hk)

def Meets (o p : Opcode) : Prop :=
  ∀ k < 4, o.symbol k ∈ operandLetters ∨ p.symbol k ∈ operandLetters ∨ o.symbol k = p.symbol k

instance (o p : Opcode) : Decidable (o.Meets p) :=
  inferInstanceAs (Decidable (∀ k < 4, _ ∨ _ ∨ _))

theorem Fits.meets {o p : Opcode} {w : UInt16} (ho : o.Fits w) (hp : p.Fits w) : o.Meets p := by
  intro k hk
  rcases ho k hk with h | h
  · exact .inl h
  · rcases hp k hk with g | g
    · exact .inr (.inl g)
    · exact .inr (.inr (h.trans g.symm))

theorem eq_of_meets : ∀ o p : Opcode, o ≠ sys → p ≠ sys → o.Meets p → o = p := by
  decide +kernel

theorem eq_of_meets_sys : ∀ o : Opcode, o.Meets sys → o = sys ∨ o = cls ∨ o = ret := by
  decide +kernel

theorem fits_iff_eq {o : Opcode} {v : UInt16} (h : Row.Agrees ⟨0xFFFF, v, o⟩) (w : UInt16) :
    o.Fits w ↔ w = v := by
  have hw : w &&& 0xFFFF = w :=
    UInt16.toNat_inj.mp (Nat.and_two_pow_sub_one_of_lt_two_pow (n := 16) w.toNat_lt)
  rw [← h.covers_iff, Row.covers, hw, beq_iff_eq]

theorem fits_cls_iff (w : UInt16) : cls.Fits w ↔ w = 0x00E0 := fits_iff_eq (by decide) w

theorem fits_ret_iff (w : UInt16) : ret.Fits w ↔ w = 0x00EE := fits_iff_eq (by decide) w

theorem ofWordBy?_eq_none_iff (w : UInt16) :
    ofWordBy? table w = none ↔ ∀ o : Opcode, ¬ o.Fits w := by
  simp only [ofWordBy?, Option.map_eq_none_iff, List.find?_eq_none]
  constructor
  · intro h o ho
    obtain ⟨row, hrow, rfl⟩ := List.mem_map.mp (mem_opcodes o)
    exact h row hrow (((agrees_of_mem_table row hrow).covers_iff w).mpr ho)
  · intro h row hrow hc
    exact h row.opcode (((agrees_of_mem_table row hrow).covers_iff w).mp hc)

theorem fits_of_ofWordBy? {w : UInt16} {o : Opcode} (h : ofWordBy? table w = some o) :
    o.Fits w := by
  obtain ⟨row, hrow, rfl⟩ := Option.map_eq_some_iff.mp h
  have hc := List.find?_some hrow
  exact ((agrees_of_mem_table row (List.mem_of_find?_eq_some hrow)).covers_iff w).mp hc

/-- The shapes that a word fits are that of its operation and, for the two words that are taken out
of it, 0nnn. -/
theorem fits_iff_of_ofWordBy? {w : UInt16} {o : Opcode} (h : ofWordBy? table w = some o)
    (p : Opcode) : p.Fits w ↔ p = o ∨ p = sys ∧ (o = cls ∨ o = ret) := by
  have ho := fits_of_ofWordBy? h
  constructor
  · intro hp
    by_cases hs : p = sys
    · subst hs
      rcases eq_of_meets_sys o (ho.meets hp) with rfl | rfl | rfl
      · exact .inl rfl
      · exact .inr ⟨rfl, .inl rfl⟩
      · exact .inr ⟨rfl, .inr rfl⟩
    · by_cases ht : o = sys
      · subst ht
        rcases eq_of_meets_sys p (hp.meets ho) with rfl | rfl | rfl
        · exact .inl rfl
        · rw [(fits_cls_iff w).mp hp] at h
          exact absurd h (by decide)
        · rw [(fits_ret_iff w).mp hp] at h
          exact absurd h (by decide)
      · exact .inl (eq_of_meets p o hs ht (hp.meets ho))
  · rintro (rfl | ⟨rfl, rfl | rfl⟩)
    · exact ho
    · rw [(fits_cls_iff w).mp ho]
      decide
    · rw [(fits_ret_iff w).mp ho]
      decide

end Opcode

namespace Instruction

theorem decode_eq_error_iff (w : UInt16) (f : Fault) :
    decode w = .error f ↔ f = .invalidInstruction w ∧ ∀ o : Opcode, ¬ o.Fits w := by
  rw [← Opcode.ofWordBy?_eq_none_iff]
  simp only [decode, decodeBy]
  split
  · next o h => simp [h]
  · next h => simp [h, eq_comm]

theorem decode_eq_ok_iff (w : UInt16) (i : Instruction) :
    decode w = .ok i ↔ ∃ o, Opcode.ofWordBy? Opcode.table w = some o ∧ withOperands w o = i := by
  simp only [decode, decodeBy]
  split
  · next o h => simp [h]
  · next h => simp [h]

end Instruction

end ChipEight
