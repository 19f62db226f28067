import ChipEight.Machine.Execution

namespace ChipEight.Machine

def advance (m : Machine) : Machine :=
  { m with pc := if m.jumped then m.pc else m.pc + Instruction.size, jumped := false }

def cycle (m : Machine) : Outcome :=
  if m.isBlocked then .done m
  else
    match m.memory.fetch m.pc with
    | .ok i => (m.execute i).andThen fun n => .done n.advance
    | .error f => .failed m f

def cycles : Nat → Machine → Outcome
  | 0, m => .done m
  | n + 1, m => m.cycle.andThen (cycles n)

/-- So many cycles, or fewer if one fails or the machine comes to wait for a key. -/
def burst : Nat → Machine → Outcome
  | 0, m => .done m
  | n + 1, m => if m.isBlocked then .done m else m.cycle.andThen (burst n)

theorem cycle_of_isBlocked {m : Machine} (h : m.isBlocked) : m.cycle = .done m := by
  simp only [cycle, if_pos h]

@[simp] theorem cycles_succ (n : Nat) (m : Machine) :
    cycles (n + 1) m = m.cycle.andThen (cycles n) := rfl

theorem cycles_of_isBlocked {m : Machine} (h : m.isBlocked) (n : Nat) :
    cycles n m = .done m := by
  induction n with
  | zero => rfl
  | succ n ih => simp only [cycles_succ, cycle_of_isBlocked h, Outcome.andThen, Outcome.done,
      Outcome.after, ih, List.append_nil]

/-- Stopping while the machine waits makes no difference, since nothing would happen. -/
theorem burst_eq_cycles (n : Nat) (m : Machine) : burst n m = cycles n m := by
  induction n generalizing m with
  | zero => rfl
  | succ n ih =>
    simp only [burst]
    split
    · next h => exact (cycles_of_isBlocked h (n + 1)).symm
    · rw [cycles_succ, funext ih]

theorem exists_of_fault_cycles {n : Nat} {m : Machine} {f : Fault}
    (h : (cycles n m).fault = some f) : ∃ k < n, (cycles k m).fault = none ∧
      (cycles k m).machine.cycle.fault = some f ∧
      (cycles k m).machine.cycle.machine = (cycles n m).machine := by
  induction n generalizing m with
  | zero => cases h
  | succ n ih =>
    rw [cycles_succ] at h ⊢
    cases hf : m.cycle.fault with
    | some g =>
      rw [Outcome.andThen_of_some hf] at h ⊢
      exact ⟨0, Nat.zero_lt_succ n, rfl, h, rfl⟩
    | none =>
      rw [Outcome.andThen_of_none hf] at h ⊢
      obtain ⟨k, hk, hnone, hsome, hmachine⟩ := ih h
      refine ⟨k + 1, Nat.succ_lt_succ hk, ?_⟩
      rw [cycles_succ, Outcome.andThen_of_none hf]
      exact ⟨hnone, hsome, hmachine⟩

end ChipEight.Machine
