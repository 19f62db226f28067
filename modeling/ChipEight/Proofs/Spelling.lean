import ChipEight.Proofs.Shape
import ChipEight.RegisterFile

namespace ChipEight

namespace Opcode

def Shows (o : Opcode) (letters : List Char) : Prop := letters <:+: o.shape.toList

instance (o : Opcode) (letters : List Char) : Decidable (o.Shows letters) :=
  inferInstanceAs (Decidable (letters <:+: o.shape.toList))

def ShowsCount (o : Opcode) : Prop := o.Shows ['n'] ∧ ¬ o.Shows ['n', 'n']

instance (o : Opcode) : Decidable o.ShowsCount := inferInstanceAs (Decidable (_ ∧ _))

theorem symbol_eq_x : ∀ o : Opcode, ∀ k < 4, o.symbol k = 'x' → k = 2 ∧ o.Shows ['x'] := by
  decide +kernel

theorem symbol_eq_y : ∀ o : Opcode, ∀ k < 4, o.symbol k = 'y' → k = 1 ∧ o.Shows ['y'] := by
  decide +kernel

theorem symbol_eq_k : ∀ o : Opcode, ∀ k < 4, o.symbol k = 'k' → k < 2 ∧ o.Shows ['k', 'k'] := by
  decide +kernel

theorem symbol_eq_n : ∀ o : Opcode, ∀ k < 4, o.symbol k = 'n' →
    k < 3 ∧ o.Shows ['n', 'n', 'n'] ∨
      k = 0 ∧ ¬ o.Shows ['n', 'n', 'n'] ∧ ¬ o.Shows ['k', 'k'] ∧ o.ShowsCount := by
  decide +kernel

end Opcode

namespace Instruction

open Opcode

def parts (i : Instruction) :
    Opcode × Option (Fin 4096) × Option Register × Option Register × Option Nat :=
  (i.opcode, i.address?, i.x?, i.y?, i.number?)

/-- What the operands put in the place of a character of the shape that has `k` characters behind
it. -/
def spelled? (i : Instruction) (k : Nat) (c : Char) : Option Char :=
  if c = 'x' then i.x?.map fun x => face x.val
  else if c = 'y' then i.y?.map fun y => face y.val
  else if c = 'k' then i.number?.map fun v => face (v >>> (4 * k) % 16)
  else if c = 'n' then
    ((i.address?.map Fin.val).or i.number?).map fun v => face (v >>> (4 * k) % 16)
  else some c

structure Spells (i : Instruction) (w : UInt16) : Prop where
  /-- The word fits the shape of the operation and no other one, but 00E0 and 00EE fit 0nnn too. -/
  fits_iff : ∀ o : Opcode, o.Fits w ↔ o = i.opcode ∨ o = .sys ∧ (i.opcode = .cls ∨ i.opcode = .ret)
  address : i.address?.isSome ↔ i.opcode.Shows ['n', 'n', 'n']
  x : i.x?.isSome ↔ i.opcode.Shows ['x']
  y : i.y?.isSome ↔ i.opcode.Shows ['y']
  number : i.number?.isSome ↔ i.opcode.Shows ['k', 'k'] ∨ i.opcode.ShowsCount
  spelled : ∀ k < 4, i.spelled? k (i.opcode.symbol k) = some (face (digit w k))

variable {i j : Instruction} {v w : UInt16} {o : Opcode}

theorem address?_withOperands (w : UInt16) (o : Opcode) : (withOperands w o).address? =
    if o.Shows ['n', 'n', 'n'] then some (addressField w) else none := by
  cases o <;> rfl

theorem x?_withOperands (w : UInt16) (o : Opcode) : (withOperands w o).x? =
    if o.Shows ['x'] then some (xField w) else none := by
  cases o <;> rfl

theorem y?_withOperands (w : UInt16) (o : Opcode) : (withOperands w o).y? =
    if o.Shows ['y'] then some (yField w) else none := by
  cases o <;> rfl

theorem number?_withOperands (w : UInt16) (o : Opcode) : (withOperands w o).number? =
    if o.Shows ['k', 'k'] then some (byteField w).toNat
    else if o.ShowsCount then some (countField w).val else none := by
  cases o <;> rfl

theorem spelled?_of_not_mem {c : Char} (hc : c ∉ operandLetters) (k : Nat) :
    i.spelled? k c = some c := by
  simp only [operandLetters, List.mem_cons, List.not_mem_nil, or_false, not_or] at hc
  obtain ⟨hn, hk, hx, hy⟩ := hc
  rw [spelled?, if_neg hx, if_neg hy, if_neg hk, if_neg hn]

theorem spelled?_withOperands (h : o.Fits w) {k : Nat} (hk : k < 4) :
    (withOperands w o).spelled? k (o.symbol k) = some (face (digit w k)) := by
  rcases h k hk with hs | hs
  · simp only [operandLetters, List.mem_cons, List.not_mem_nil, or_false] at hs
    rcases hs with hs | hs | hs | hs
    · rw [hs, spelled?, if_neg (by decide), if_neg (by decide), if_neg (by decide), if_pos rfl,
        address?_withOperands, number?_withOperands]
      -- Three of them are an address, and one alone is a count.
      rcases symbol_eq_n o k hk hs with ⟨hlt, hn⟩ | ⟨rfl, hn, hkk, hcount⟩
      · rw [if_pos hn, Option.map_some, Option.some_or, Option.map_some, digit_addressField w hlt]
      · rw [if_neg hn, if_neg hkk, if_pos hcount, Option.map_none, Option.none_or, Option.map_some,
          val_countField, Nat.mul_zero, Nat.shiftRight_zero, Nat.mod_eq_of_lt (digit_lt w 0)]
    · obtain ⟨hlt, hkk⟩ := symbol_eq_k o k hk hs
      rw [hs, spelled?, if_neg (by decide), if_neg (by decide), if_pos rfl, number?_withOperands,
        if_pos hkk, Option.map_some, digit_byteField w hlt]
    · obtain ⟨rfl, hx⟩ := symbol_eq_x o k hk hs
      rw [hs, spelled?, if_pos rfl, x?_withOperands, if_pos hx, Option.map_some, val_xField]
    · obtain ⟨rfl, hy⟩ := symbol_eq_y o k hk hs
      rw [hs, spelled?, if_neg (by decide), if_pos rfl, y?_withOperands, if_pos hy,
        Option.map_some, val_yField]
  · rw [hs]
    exact spelled?_of_not_mem (face_not_mem_operandLetters (digit_lt w k)) k

theorem spells_of_decode (h : decode w = .ok i) : i.Spells w := by
  obtain ⟨o, ho, rfl⟩ := (decode_eq_ok_iff w i).mp h
  refine ⟨?_, ?_, ?_, ?_, ?_, ?_⟩ <;> rw [opcode_withOperands]
  · exact fits_iff_of_ofWordBy? ho
  · rw [address?_withOperands]
    split <;> simp [*]
  · rw [x?_withOperands]
    split <;> simp [*]
  · rw [y?_withOperands]
    split <;> simp [*]
  · rw [number?_withOperands]
    split
    · simp [*]
    · split <;> simp [*]
  · exact fun k hk => spelled?_withOperands (fits_of_ofWordBy? ho) hk

theorem spelled?_of_parts_eq (h : i.parts = j.parts) (k : Nat) (c : Char) :
    i.spelled? k c = j.spelled? k c := by
  simp only [parts, Prod.mk.injEq] at h
  obtain ⟨-, ha, hx, hy, hn⟩ := h
  rw [spelled?, spelled?, ha, hx, hy, hn]

theorem Spells.word_eq (hi : i.Spells v) (hj : j.Spells w) (h : i.parts = j.parts) : v = w := by
  have ho : i.opcode = j.opcode := congrArg Prod.fst h
  apply eq_of_digit_eq
  intro k hk
  apply face_injective (digit_lt v k) (digit_lt w k)
  apply Option.some.inj
  calc some (face (digit v k))
    _ = i.spelled? k (i.opcode.symbol k) := (hi.spelled k hk).symm
    _ = j.spelled? k (j.opcode.symbol k) := by rw [ho, spelled?_of_parts_eq h]
    _ = some (face (digit w k)) := hj.spelled k hk

theorem ofField_xField (l : Text.DigitLimit) (w : UInt16) :
    Register.ofField l ((w &&& 0x0F00) >>> 8).toNat = .ok (xField w) := by
  rw [toNat_and_secondDigit, ← val_xField, Register.ofField, Register.ofInt?_val]

theorem ofField_yField (l : Text.DigitLimit) (w : UInt16) :
    Register.ofField l ((w &&& 0x00F0) >>> 4).toNat = .ok (yField w) := by
  rw [toNat_and_thirdDigit, ← val_yField, Register.ofField, Register.ofInt?_val]

end Instruction

inductive Source where
  | number (n : Int)
  | bytes (bs : List UInt8)

namespace Source

open Instruction

def decode : Source → Except Fault Instruction
  | number n => decodeNumber n
  | bytes bs => decodeBytes bs

def IsSized : Source → Prop
  | number n => 0 ≤ n ∧ n ≤ 0xFFFF
  | bytes bs => bs.length = 2

def sizeFault : Source → Fault
  | number n => .wideWord n
  | bytes bs => .wordLength bs.length

def Holds : Source → UInt16 → Prop
  | number n, w => n = w.toNat
  | bytes bs, w => ∃ upper lower : UInt8, bs = [upper, lower] ∧
      w.toNat = 256 * upper.toNat + lower.toNat

structure Decodes (s : Source) : Prop where
  succeeds_iff : (∃ i, s.decode = .ok i) ↔ s.IsSized ∧ ∃ w o, s.Holds w ∧ Opcode.Fits o w
  wrong_size : ¬ s.IsSized → s.decode = .error s.sizeFault
  unmatched : ∀ w, s.Holds w → (∀ o, ¬ Opcode.Fits o w) → s.decode = .error (.invalidInstruction w)
  not_invalidRegister : ∀ value, s.decode ≠ .error (.invalidRegister value)
  /-- The digits in the places of `x` and `y` always name registers. -/
  registers : ∀ w l, s.Holds w →
    Register.ofField l ((w &&& 0x0F00) >>> 8).toNat = .ok (xField w) ∧
    Register.ofField l ((w &&& 0x00F0) >>> 4).toNat = .ok (yField w)
  spells : ∀ w i, s.Holds w → s.decode = .ok i → i.Spells w
  word_eq : ∀ (t : Source) v w i j, s.Holds v → t.Holds w → s.decode = .ok i → t.decode = .ok j →
    i.parts = j.parts → v = w

variable {s : Source} {w : UInt16}

theorem decode_of_holds (h : s.Holds w) : s.decode = Instruction.decode w := by
  cases s with
  | number n =>
    obtain rfl : n = w.toNat := h
    have hw := w.toNat_lt
    rw [decode, decodeNumber, if_pos (by omega), Int.toNat_natCast, UInt16.ofNat_toNat]
  | bytes bs =>
    obtain ⟨upper, lower, rfl, hw⟩ := h
    rw [decode, decodeBytes, wordOf_eq, ← hw, UInt16.ofNat_toNat]

theorem decode_of_not (h : ¬ s.IsSized) : s.decode = .error s.sizeFault := by
  cases s with
  | number n =>
    have hn : ¬ (0 ≤ n ∧ n < 0x10000) := fun hn => h ⟨hn.1, by omega⟩
    rw [decode, decodeNumber, if_neg hn, sizeFault]
  | bytes bs =>
    rw [decode, decodeBytes, sizeFault]
    rintro upper lower rfl
    exact h rfl

theorem exists_holds (h : s.IsSized) : ∃ w, s.Holds w := by
  cases s with
  | number n =>
    obtain ⟨hlo, hhi⟩ := h
    have hn : n.toNat < 0x10000 := by omega
    have hw : (UInt16.ofNat n.toNat).toNat = n.toNat := UInt16.toNat_ofNat_of_lt' hn
    refine ⟨UInt16.ofNat n.toNat, ?_⟩
    rw [Holds, hw, Int.toNat_of_nonneg hlo]
  | bytes bs =>
    match bs, h with
    | [upper, lower], _ =>
      have hu := upper.toNat_lt
      have hl := lower.toNat_lt
      have hw : 256 * upper.toNat + lower.toNat < 0x10000 := by omega
      exact ⟨UInt16.ofNat _, upper, lower, rfl, UInt16.toNat_ofNat_of_lt' hw⟩

theorem succeeds_iff (s : Source) :
    (∃ i, s.decode = .ok i) ↔ s.IsSized ∧ ∃ w o, s.Holds w ∧ Opcode.Fits o w := by
  constructor
  · rintro ⟨i, hi⟩
    by_cases hs : s.IsSized
    · obtain ⟨w, hw⟩ := exists_holds hs
      rw [decode_of_holds hw] at hi
      obtain ⟨o, ho, -⟩ := (decode_eq_ok_iff w i).mp hi
      exact ⟨hs, w, o, hw, Opcode.fits_of_ofWordBy? ho⟩
    · rw [decode_of_not hs] at hi
      cases hi
  · rintro ⟨-, w, o, hw, ho⟩
    rw [decode_of_holds hw]
    cases hd : Instruction.decode w with
    | ok i => exact ⟨i, rfl⟩
    | error f => exact absurd ho (((decode_eq_error_iff w f).mp hd).2 o)

theorem decode_ne_invalidRegister (s : Source) (value : Int) :
    s.decode ≠ .error (.invalidRegister value) := by
  intro h
  by_cases hs : s.IsSized
  · obtain ⟨w, hw⟩ := exists_holds hs
    rw [decode_of_holds hw] at h
    exact nomatch ((decode_eq_error_iff w _).mp h).1
  · rw [decode_of_not hs] at h
    cases s <;> cases h

theorem spells_of_holds {i : Instruction} (hw : s.Holds w) (hi : s.decode = .ok i) :
    i.Spells w := by
  rw [decode_of_holds hw] at hi
  exact spells_of_decode hi

/-- What can be read are the words of the shapes, and reading keeps all of them. -/
theorem decodes_shapes (s : Source) : s.Decodes where
  succeeds_iff := s.succeeds_iff
  wrong_size := decode_of_not
  unmatched w hw hn := (decode_of_holds hw).trans ((decode_eq_error_iff w _).mpr ⟨rfl, hn⟩)
  not_invalidRegister := s.decode_ne_invalidRegister
  registers w l _ := ⟨ofField_xField l w, ofField_yField l w⟩
  spells _ _ := spells_of_holds
  word_eq _ _ _ _ _ hv hw hi hj := (spells_of_holds hv hi).word_eq (spells_of_holds hw hj)

end Source

end ChipEight
