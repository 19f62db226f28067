import ChipEight.Proofs.Spelling
import Mathlib.Data.Int.Bitwise

namespace ChipEight

namespace Opcode

theorem showsCount_iff : ∀ o : Opcode, o.ShowsCount ↔ o = draw := by decide +kernel

end Opcode

namespace Instruction

open Opcode

def maskedParts (n : Int) : List Int :=
  [n.land 0xF000 >>> (12 : Nat), n.land 0x0F00 >>> (8 : Nat), n.land 0x00F0 >>> (4 : Nat),
    n.land 0x000F]

def digitOf (w : UInt16) (k : Nat) : Fin 16 := ⟨digit w k, digit_lt w k⟩

/-- The operands of an instruction are made of the last three digits of its word. -/
structure MadeOf (i : Instruction) (b c d : Fin 16) : Prop where
  x : ∀ x, i.x? = some x → x = b
  y : ∀ y, i.y? = some y → y = c
  address : ∀ a, i.address? = some a → a.val = 256 * b.val + 16 * c.val + d.val
  count : i.opcode = .draw → i.number? = some d.val
  byte : i.opcode.Shows ['k', 'k'] → i.number? = some (16 * c.val + d.val)
  number : i.number?.isSome → i.opcode = .draw ∨ i.opcode.Shows ['k', 'k']

/-- The digits are the last four of the number. Masks and shifts give them, and the operands of what
is read from the number are made of them. -/
structure Splits (n : Int) (a b c d : Fin 16) : Prop where
  parts : maskedParts n = [a, b, c, d].map fun digit => (digit.val : Int)
  bounds : ∀ part ∈ maskedParts n, 0 ≤ part ∧ part ≤ 15
  value : (4096 * a.val + 256 * b.val + 16 * c.val + d.val : Int) = n % 65536
  operands : ∀ (s : Source) (w : UInt16) (i : Instruction), s.Holds w → w.toNat = n →
    s.decode = .ok i → i.MadeOf b c d

section

variable (n : Int)

/-- Masks are the conjunction of all bits, those of the two's complement for negative numbers. -/
theorem masked_eq_land (mask : Nat) : (masked n mask : Int) = n.land mask := by
  cases n with
  | ofNat k => rfl
  | negSucc k =>
    refine congrArg Nat.cast (Nat.eq_of_testBit_eq fun i => ?_)
    rw [masked, Nat.testBit_and, Nat.testBit_xor, Nat.testBit_ldiff]
    cases k.testBit i <;> cases mask.testBit i <;> rfl

theorem testBit_masked (mask i : Nat) :
    (masked n mask).testBit i = (n.testBit i && mask.testBit i) :=
  calc (masked n mask).testBit i
    _ = (masked n mask : Int).testBit i := rfl
    _ = (n.land mask).testBit i := by rw [masked_eq_land]
    _ = (n.testBit i && (mask : Int).testBit i) := Int.testBit_land n mask i

theorem toNat_ofInt : ((UInt16.ofInt n).toNat : Int) = n % 65536 := by
  rw [UInt16.ofInt, UInt16.toNat_ofNat']
  omega

theorem testBit_ofInt {i : Nat} (hi : i < 16) :
    (UInt16.ofInt n).toNat.testBit i = n.testBit i := by
  have hn := toNat_ofInt n
  cases n with
  | ofNat k =>
    have hk : (UInt16.ofInt (Int.ofNat k)).toNat = k % 2 ^ 16 := by
      rw [Int.ofNat_eq_natCast] at hn ⊢
      omega
    rw [hk, Nat.testBit_mod_two_pow, decide_eq_true hi, Bool.true_and]
    rfl
  | negSucc k =>
    -- what lacks to a power of two has the opposite bits
    have hk : (UInt16.ofInt (Int.negSucc k)).toNat = 2 ^ 16 - (k % 2 ^ 16 + 1) := by
      rw [Int.negSucc_emod k (by decide)] at hn
      omega
    rw [hk, Nat.testBit_two_pow_sub_succ (Nat.mod_lt k (by decide)), Nat.testBit_mod_two_pow,
      decide_eq_true hi, Bool.true_and, Bool.true_and]
    rfl

theorem masked_eq_and {mask : Nat} (hmask : mask < 2 ^ 16) :
    masked n mask = (UInt16.ofInt n).toNat &&& mask := by
  refine Nat.eq_of_testBit_eq fun i => ?_
  rw [testBit_masked, Nat.testBit_and]
  by_cases hi : i < 16
  · rw [testBit_ofInt n hi]
  · have hle : 2 ^ 16 ≤ 2 ^ i := Nat.pow_le_pow_right (by decide) (by omega)
    have hfalse : mask.testBit i = false := Nat.testBit_lt_two_pow (Nat.lt_of_lt_of_le hmask hle)
    rw [hfalse, Bool.and_false, Bool.and_false]

theorem val_maskedDigit (mask shift : Nat) (h : mask >>> shift < 16) :
    ((maskedDigit n mask shift h).val : Int) = n.land mask >>> shift := by
  rw [← masked_eq_land]
  exact Int.natCast_shiftRight _ _

theorem maskedDigit_eq {k : Nat} (hk : k < 4) (h : 15 <<< (4 * k) >>> (4 * k) < 16) :
    maskedDigit n (15 <<< (4 * k)) (4 * k) h = digitOf (UInt16.ofInt n) k := by
  have hmask : ∀ k < 4, 15 <<< (4 * k) < 2 ^ 16 := by decide
  apply Fin.ext
  calc masked n (15 <<< (4 * k)) >>> (4 * k)
    _ = ((UInt16.ofInt n).toNat &&& 15 <<< (4 * k)) >>> (4 * k) := by
      rw [masked_eq_and n (hmask k hk)]
    _ = digit (UInt16.ofInt n) k := and_shiftRight_eq_digit _ k

theorem nibbles_eq : nibbles n = (digitOf (UInt16.ofInt n) 3, digitOf (UInt16.ofInt n) 2,
    digitOf (UInt16.ofInt n) 1, digitOf (UInt16.ofInt n) 0) := by
  have h3 := maskedDigit_eq n (k := 3) (by decide) (by decide)
  have h2 := maskedDigit_eq n (k := 2) (by decide) (by decide)
  have h1 := maskedDigit_eq n (k := 1) (by decide) (by decide)
  have h0 := maskedDigit_eq n (k := 0) (by decide) (by decide)
  rw [← h3, ← h2, ← h1, ← h0]
  rfl

end

section

variable (w : UInt16)

theorem val_addressField_eq_digits :
    (addressField w).val = 256 * digit w 2 + 16 * digit w 1 + digit w 0 := by
  rw [val_addressField]
  simp only [digit]
  omega

theorem toNat_byteField_eq_digits : (byteField w).toNat = 16 * digit w 1 + digit w 0 := by
  rw [toNat_byteField]
  simp only [digit]
  omega

theorem madeOf_withOperands (o : Opcode) :
    (withOperands w o).MadeOf (digitOf w 2) (digitOf w 1) (digitOf w 0) where
  x x hx := by
    rw [x?_withOperands, Option.ite_none_right_eq_some] at hx
    obtain ⟨-, hx⟩ := hx
    cases hx
    exact Fin.ext (val_xField w)
  y y hy := by
    rw [y?_withOperands, Option.ite_none_right_eq_some] at hy
    obtain ⟨-, hy⟩ := hy
    cases hy
    exact Fin.ext (val_yField w)
  address a ha := by
    rw [address?_withOperands, Option.ite_none_right_eq_some] at ha
    obtain ⟨-, ha⟩ := ha
    cases ha
    exact val_addressField_eq_digits w
  count h := by
    rw [opcode_withOperands] at h
    subst h
    exact congrArg some (val_countField w)
  byte h := by
    rw [opcode_withOperands] at h
    rw [number?_withOperands, if_pos h, toNat_byteField_eq_digits]
    rfl
  number h := by
    rw [opcode_withOperands, ← showsCount_iff]
    rw [number?_withOperands] at h
    by_cases hk : o.Shows ['k', 'k']
    · exact .inr hk
    · by_cases hn : o.ShowsCount
      · exact .inl hn
      · rw [if_neg hk, if_neg hn] at h
        cases h

end

theorem madeOf_of_decode {w : UInt16} {i : Instruction} (h : decode w = .ok i) :
    i.MadeOf (digitOf w 2) (digitOf w 1) (digitOf w 0) := by
  obtain ⟨o, -, rfl⟩ := (decode_eq_ok_iff w i).mp h
  exact madeOf_withOperands w o

theorem ofInt_toNat (w : UInt16) : UInt16.ofInt w.toNat = w := by
  have hn := toNat_ofInt w.toNat
  have hw := w.toNat_lt
  apply UInt16.toNat_inj.mp
  omega

theorem maskedParts_eq (n : Int) {a b c d : Fin 16} (h : nibbles n = (a, b, c, d)) :
    maskedParts n = [a, b, c, d].map fun digit => (digit.val : Int) := by
  obtain ⟨rfl, rfl, rfl, rfl⟩ := h
  simp only [maskedParts, List.map_cons, List.map_nil, val_maskedDigit, Int.shiftRight_zero]
  rfl

/-- Masks and shifts take any number apart into its last four digits, and the operands of the
instruction that it stands for are made of the same digits. -/
theorem nibbles_split (n : Int) : ∃ a b c d, nibbles n = (a, b, c, d) ∧ Splits n a b c d := by
  have hn := nibbles_eq n
  have hparts := maskedParts_eq n hn
  refine ⟨_, _, _, _, hn, hparts, ?_, ?_, ?_⟩
  · rw [hparts]
    intro part hpart
    obtain ⟨digit, -, rfl⟩ := List.mem_map.mp hpart
    omega
  · have hword := toNat_eq_digits (UInt16.ofInt n)
    have hvalue := toNat_ofInt n
    simp only [digitOf]
    omega
  · rintro s w i hs rfl hi
    rw [ofInt_toNat]
    rw [Source.decode_of_holds hs] at hi
    exact madeOf_of_decode hi

example : nibbles (-2) = (15, 15, 15, 14) := by decide

end Instruction

end ChipEight
