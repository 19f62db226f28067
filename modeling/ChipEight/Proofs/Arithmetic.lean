import ChipEight.Proofs.Course

namespace ChipEight

namespace RegisterFile

def value (v : RegisterFile) (r : Register) : Nat := v[r].toNat

structure HoldsSum (v : RegisterFile) (x : Register) (total : Nat) : Prop where
  result_eq : x ≠ Register.flag → v.value x + 256 * v.value Register.flag = total
  flag_eq : v.value Register.flag = if 256 ≤ total then 1 else 0

/-- A difference in Vx, and in VF that nothing was borrowed for it. -/
structure HoldsDifference (v : RegisterFile) (x : Register) (a b : Nat) : Prop where
  result_eq : x ≠ Register.flag →
    (v.value x : Int) = (a : Int) - b + 256 * (1 - v.value Register.flag)
  flag_eq : v.value Register.flag = if b ≤ a then 1 else 0

/-- The half of a number in Vx, with what is left over in VF, or else in VF the half. -/
structure HoldsHalf (v : RegisterFile) (x : Register) (b : Nat) : Prop where
  result_eq : x ≠ Register.flag → 2 * v.value x + v.value Register.flag = b
  flag_le : x ≠ Register.flag → v.value Register.flag ≤ 1
  alone : x = Register.flag → v.value Register.flag = b / 2

/-- The double of a number in Vx, with its carry in VF, or else in VF the lower bits of it. -/
structure HoldsDouble (v : RegisterFile) (x : Register) (b : Nat) : Prop where
  result_eq : x ≠ Register.flag → 256 * v.value Register.flag + v.value x = 2 * b
  flag_le : x ≠ Register.flag → v.value Register.flag ≤ 1
  alone : x = Register.flag → v.value Register.flag = 2 * b % 256

structure HoldsPlain (v : RegisterFile) (x : Register) (total : Nat) (before : RegisterFile) :
    Prop where
  result_eq : v.value x = total
  flag_eq : x ≠ Register.flag → v.value Register.flag = before.value Register.flag

end RegisterFile

namespace Machine

def Leaves (m : Machine) (i : Instruction) (x : Register) (P : RegisterFile → Prop) : Prop :=
  ∀ o, m.Executes i o → o.fault = none ∧ P o.machine.registers ∧
    ∀ r : Register, r ≠ x → r ≠ Register.flag → o.machine.registers.value r = m.registers.value r

structure Reckons (m : Machine) : Prop where
  addByte : ∀ x b, m.Leaves (.addByte x b) x fun v =>
    v.HoldsSum x (m.registers.value x + b.toNat)
  add : ∀ x y, m.Leaves (.add x y) x fun v =>
    v.HoldsSum x (m.registers.value x + m.registers.value y)
  sub : ∀ x y, m.Leaves (.sub x y) x fun v =>
    v.HoldsDifference x (m.registers.value x) (m.registers.value y)
  subFrom : ∀ x y, m.Leaves (.subFrom x y) x fun v =>
    v.HoldsDifference x (m.registers.value y) (m.registers.value x)
  shiftRight : ∀ x y, m.Leaves (.shiftRight x y) x fun v => v.HoldsHalf x (m.registers.value y)
  shiftLeft : ∀ x y, m.Leaves (.shiftLeft x y) x fun v => v.HoldsDouble x (m.registers.value y)
  or : ∀ x y, m.Leaves (.or x y) x fun v =>
    v.HoldsPlain x (m.registers.value x ||| m.registers.value y) m.registers
  and : ∀ x y, m.Leaves (.and x y) x fun v =>
    v.HoldsPlain x (m.registers.value x &&& m.registers.value y) m.registers
  xor : ∀ x y, m.Leaves (.xor x y) x fun v =>
    v.HoldsPlain x (m.registers.value x ^^^ m.registers.value y) m.registers

variable {m n : Machine} {i : Instruction} {x : Register} {a b : UInt8} {flag : Bool}
  {c : Prop} [Decidable c] {P : RegisterFile → Prop}

theorem value_setRegister (r q : Register) : (m.setRegister r b).registers.value q =
    if r = q then b.toNat else m.registers.value q := by
  rw [RegisterFile.value, registers_setRegister, apply_ite UInt8.toNat]
  rfl

theorem value_setFlag (q : Register) : (m.setFlag flag).registers.value q =
    if Register.flag = q then if flag then 1 else 0 else m.registers.value q := by
  rw [setFlag, value_setRegister, apply_ite UInt8.toNat]
  rfl

theorem value_setFlag_setRegister (x : Register) (b : UInt8) (hc : flag = true ↔ c) :
    let v := ((m.setRegister x b).setFlag flag).registers
    (x ≠ Register.flag → v.value x = b.toNat) ∧
      v.value Register.flag = (if c then 1 else 0) ∧
      ∀ r, r ≠ x → r ≠ Register.flag → v.value r = m.registers.value r := by
  refine ⟨fun hx => ?_, ?_, fun r hr hflag => ?_⟩
  · rw [value_setFlag, if_neg (Ne.symm hx), value_setRegister, if_pos rfl]
  · rw [value_setFlag, if_pos rfl]
    simp only [hc]
  · rw [value_setFlag, if_neg (Ne.symm hflag), value_setRegister, if_neg (Ne.symm hr)]

theorem value_setRegister_setFlag (x : Register) (b : UInt8) (hc : flag = true ↔ c) :
    let v := ((m.setFlag flag).setRegister x b).registers
    v.value x = b.toNat ∧
      (x ≠ Register.flag → v.value Register.flag = if c then 1 else 0) ∧
      ∀ r, r ≠ x → r ≠ Register.flag → v.value r = m.registers.value r := by
  refine ⟨?_, fun hx => ?_, fun r hr hflag => ?_⟩
  · rw [value_setRegister, if_pos rfl]
  · rw [value_setRegister, if_neg hx, value_setFlag, if_pos rfl]
    simp only [hc]
  · rw [value_setRegister, if_neg (Ne.symm hr), value_setFlag, if_neg (Ne.symm hflag)]

theorem leaves_of_effect (he : m.effect i = .done n) (hP : P n.registers)
    (hkeep : ∀ r, r ≠ x → r ≠ Register.flag → n.registers.value r = m.registers.value r) :
    m.Leaves i x P := by
  intro o ho
  obtain ⟨pc, jumped, hmachine⟩ := ho.exists_machine_eq
  rw [he] at hmachine
  rw [ho.fault_eq, he, hmachine]
  exact ⟨rfl, hP, hkeep⟩

theorem leaves_storeSum (he : m.effect i = .done (m.storeSum x a b)) :
    m.Leaves i x fun v => v.HoldsSum x (a.toNat + b.toNat) := by
  have hcarry : decide (256 ≤ a.toNat + b.toNat) = true ↔ 256 ≤ a.toNat + b.toNat :=
    decide_eq_true_iff
  obtain ⟨hresult, hflag, hkeep⟩ := m.value_setFlag_setRegister x (a + b) hcarry
  refine leaves_of_effect he ⟨fun hx => ?_, hflag⟩ hkeep
  have ha := a.toNat_lt
  have hb := b.toNat_lt
  rw [storeSum, hflag, hresult hx, UInt8.toNat_add]
  split <;> omega

theorem leaves_storeDifference (he : m.effect i = .done (m.storeDifference x a b)) :
    m.Leaves i x fun v => v.HoldsDifference x a.toNat b.toNat := by
  have hle : decide (b ≤ a) = true ↔ b.toNat ≤ a.toNat := by
    rw [decide_eq_true_eq, UInt8.le_iff_toNat_le]
  obtain ⟨hresult, hflag, hkeep⟩ := m.value_setFlag_setRegister x (a - b) hle
  refine leaves_of_effect he ⟨fun hx => ?_, hflag⟩ hkeep
  have ha := a.toNat_lt
  have hb := b.toNat_lt
  rw [storeDifference, hflag, hresult hx, UInt8.toNat_sub]
  split <;> omega

theorem leaves_storeHalf (he : m.effect i = .done (m.storeHalf x b)) :
    m.Leaves i x fun v => v.HoldsHalf x b.toNat := by
  have hodd : decide (b % 2 = 1) = true ↔ b.toNat % 2 = 1 := by
    rw [decide_eq_true_eq, ← UInt8.toNat_inj, UInt8.toNat_mod]
    rfl
  have hhalf : (b >>> 1).toNat = b.toNat / 2 := UInt8.toNat_shiftRight b 1
  obtain ⟨hresult, hflag, hkeep⟩ := m.value_setRegister_setFlag x (b >>> 1) hodd
  rw [hhalf] at hresult
  refine leaves_of_effect he ⟨fun hx => ?_, fun hx => ?_, fun hx => ?_⟩ hkeep
  · rw [storeHalf, hresult, hflag hx]
    split <;> omega
  · rw [storeHalf, hflag hx]
    split <;> omega
  · rw [← hx]
    exact hresult

theorem leaves_storeDouble (he : m.effect i = .done (m.storeDouble x b)) :
    m.Leaves i x fun v => v.HoldsDouble x b.toNat := by
  have hhigh : decide (128 ≤ b) = true ↔ 128 ≤ b.toNat := by
    rw [decide_eq_true_eq, UInt8.le_iff_toNat_le]
    rfl
  have hdouble : (b <<< 1).toNat = 2 * b.toNat % 256 := by
    rw [UInt8.toNat_shiftLeft, Nat.shiftLeft_eq, Nat.mul_comm]
    rfl
  obtain ⟨hresult, hflag, hkeep⟩ := m.value_setRegister_setFlag x (b <<< 1) hhigh
  rw [hdouble] at hresult
  have hb := b.toNat_lt
  refine leaves_of_effect he ⟨fun hx => ?_, fun hx => ?_, fun hx => ?_⟩ hkeep
  · rw [storeDouble, hresult, hflag hx]
    split <;> omega
  · rw [storeDouble, hflag hx]
    split <;> omega
  · rw [← hx]
    exact hresult

theorem leaves_setRegister (he : m.effect i = .done (m.setRegister x b)) :
    m.Leaves i x fun v => v.HoldsPlain x b.toNat m.registers := by
  refine leaves_of_effect he ⟨?_, fun hx => ?_⟩ fun r hr _ => ?_
  · rw [value_setRegister, if_pos rfl]
  · rw [value_setRegister, if_neg hx]
  · rw [value_setRegister, if_neg (Ne.symm hr)]

/-- The arithmetic is exact, whichever registers its operands and its result are in. -/
theorem reckons (m : Machine) : m.Reckons where
  addByte _ _ := leaves_storeSum rfl
  add _ _ := leaves_storeSum rfl
  sub _ _ := leaves_storeDifference rfl
  subFrom _ _ := leaves_storeDifference rfl
  shiftRight _ _ := leaves_storeHalf rfl
  shiftLeft _ _ := leaves_storeDouble rfl
  or x y := UInt8.toNat_or m.registers[x] m.registers[y] ▸ leaves_setRegister rfl
  and x y := UInt8.toNat_and m.registers[x] m.registers[y] ▸ leaves_setRegister rfl
  xor x y := UInt8.toNat_xor m.registers[x] m.registers[y] ▸ leaves_setRegister rfl

/-- In VF an addition leaves the carry, a shift its result. -/
example :
    let m := (fresh fun _ => 0).setRegister Register.flag 0xFF
    (m.effect (.add 15 15)).machine.registers[Register.flag] = 1 ∧
      (m.effect (.shiftLeft 15 15)).machine.registers[Register.flag] = 0xFE := by
  decide

end Machine

end ChipEight
