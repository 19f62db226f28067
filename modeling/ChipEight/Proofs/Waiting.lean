import ChipEight.Proofs.History
import ChipEight.Proofs.Loading

namespace ChipEight

namespace Command

def keyFault? (l : Text.DigitLimit) : Command → Option Fault
  | .press key | .release key =>
    if 0 ≤ key ∧ key < 16 then none else some (Fault.quoting (.invalidKey key) l key)
  | _ => none

end Command

namespace Machine

/-- The machine after a wait that has been ended by a number. -/
def answered (m : Machine) (r : Register) (b : UInt8) (keypad : Keypad) : Machine :=
  { m with registers := m.registers.put r b, waiting := none, keypad }

variable {m : Machine} {r : Register}

theorem press_eq (m : Machine) (key : Int) :
    ∃ keypad, m.press key =
      ⟨{ m with keypad }, (Command.press key).keyFault? m.digitLimit, []⟩ := by
  by_cases hk : 0 ≤ key ∧ key < 16
  · obtain ⟨n, rfl⟩ := Int.eq_ofNat_of_zero_le hk.1
    rw [press, Key.ofValue_of_lt _ (by omega), Command.keyFault?, if_pos hk]
    exact ⟨_, rfl⟩
  · rw [press, Key.ofValue_of_not _ (by omega), Command.keyFault?, if_neg hk]
    exact ⟨m.keypad, rfl⟩

theorem release_of_not {key : Int} (hk : ¬ (0 ≤ key ∧ key < 16)) :
    m.release key = .failed m (Fault.quoting (.invalidKey key) m.digitLimit key) := by
  rw [release, Key.ofValue_of_not _ (by omega)]

theorem interrupt_of_waiting (hw : m.waiting = some r) (key : Int) : m.interrupt key =
    if 0 ≤ key ∧ key ≤ 255 then
      ⟨m.answered r (UInt8.ofNat key.toNat) m.keypad, none, [.keyStored key r]⟩
    else .failed m (Fault.quoting (.registerRange r key) m.digitLimit key) := by
  simp only [interrupt, hw, RegisterFile.store]
  by_cases hk : 0 ≤ key ∧ key ≤ 255
  · rw [if_pos (show 0 ≤ key ∧ key < 256 by omega), if_pos hk]
    rfl
  · rw [if_neg (show ¬ (0 ≤ key ∧ key < 256) by omega), if_neg hk]

theorem release_of_waiting (hw : m.waiting = some r) (k : Key) : m.release k.val =
    ⟨m.answered r (UInt8.ofNat k.val) (m.keypad.release k), none, [.keyStored k.val r]⟩ := by
  have hk : 0 ≤ (k.val : Int) ∧ (k.val : Int) ≤ 255 := by omega
  rw [release, Key.ofValue_of_lt _ k.isLt]
  exact (interrupt_of_waiting (m := { m with keypad := m.keypad.release k }) hw _).trans (if_pos hk)

theorem release_of_none (hw : m.waiting = none) (key : Int) :
    ∃ keypad, (m.release key).machine = { m with keypad } := by
  by_cases hk : 0 ≤ key ∧ key < 16
  · obtain ⟨n, rfl⟩ := Int.eq_ofNat_of_zero_le hk.1
    rw [release, Key.ofValue_of_lt _ (by omega)]
    simp only [interrupt, hw]
    exact ⟨_, rfl⟩
  · rw [release_of_not hk]
    exact ⟨m.keypad, rfl⟩

theorem waiting_perform (h : m.WellFormed) (hw : m.waiting = none) (c : Command) :
    (m.perform c).machine.waiting = none ∨ ∃ r, c = .cycle ∧ m.instruction? = some (.awaitKey r) ∧
      m.perform c = ⟨{ m with pc := m.pc + 2, waiting := some r }, none,
        [.executed m.pc (.awaitKey r)]⟩ := by
  cases c with
  | reset => exact .inl rfl
  | load program address =>
    rw [perform, load]
    split <;> exact .inl rfl
  | cycle =>
    cases hi : m.instruction? with
    | none =>
      rw [perform, machine_cycle_of_none hi]
      exact .inl hw
    | some i =>
      by_cases ho : i.opcode = .awaitKey
      · obtain ⟨r, rfl⟩ := Instruction.opcode_eq_awaitKey_iff.mp ho
        refine .inr ⟨r, rfl, rfl, ?_⟩
        rw [perform, cycle_of_success hi rfl, effect]
        simp only [Outcome.done, advance, h.not_jumped, Instruction.size, Bool.false_eq_true,
          if_false]
      · exact .inl (((frame_cycle h hi).waiting ho).trans hw)
  | tick =>
    rw [perform, tick]
    split <;> exact .inl hw
  | press key =>
    obtain ⟨keypad, hp⟩ := press_eq m key
    rw [perform, hp]
    exact .inl hw
  | release key =>
    obtain ⟨keypad, hr⟩ := release_of_none hw key
    rw [perform, hr]
    exact .inl hw
  | markSeen => exact .inl hw

end Machine

end ChipEight
