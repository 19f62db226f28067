import ChipEight.Proofs.Invariant
import ChipEight.Proofs.Shape

namespace ChipEight.Machine

open Instruction

variable {m : Machine}

def word (m : Machine) : UInt16 :=
  .ofNat (256 * (m.memory.byteAt m.pc.toNat).toNat + (m.memory.byteAt (m.pc.toNat + 1)).toNat)

def operand (m : Machine) (w : UInt16) : Nat :=
  m.registers[(⟨digit w 2, digit_lt w 2⟩ : Register)].toNat

def wordFault? (m : Machine) (w : UInt16) : Option Fault :=
  if w = 0x00EE ∧ m.stack.frames = [] then some .emptyStack
  else if Opcode.call.Fits w ∧ m.stack.frames.length = 16 then some (.fullStack (m.pc + 2))
  else if Opcode.draw.Fits w ∧ 4096 < m.index + digit w 0 then
    some (.accessOutside (m.index + digit w 0))
  else if Opcode.storeDigits.Fits w ∧ 4096 ≤ m.index + 2 then some (.accessOutside (m.index + 2))
  else if (Opcode.storeRegisters.Fits w ∨ Opcode.loadRegisters.Fits w) ∧
      4096 ≤ m.index + digit w 2 then
    some (.accessOutside (max m.index 4096))
  else if (Opcode.skipDown.Fits w ∨ Opcode.skipUp.Fits w) ∧ 15 < m.operand w then
    some (.invalidKey (m.operand w))
  else none

/-- The fault of the next cycle, if it is going to fail. -/
def cycleFault? (m : Machine) : Option Fault :=
  if m.isBlocked then none
  else if m.pc < 0x200 then some (.protectedFetch m.pc)
  else if 4096 < m.pc + 2 then some (.fetchOutside m.pc)
  else if ∀ o : Opcode, ¬ o.Fits m.word then some (.invalidInstruction m.word)
  else m.wordFault? m.word

theorem operand_eq (m : Machine) (w : UInt16) : m.operand w = m.registers[xField w].toNat := by
  have hx : (⟨digit w 2, digit_lt w 2⟩ : Register) = xField w := Fin.ext (val_xField w).symm
  rw [operand, hx]

theorem word_eq (m : Machine) : m.memory.wordAt m.pc.toNat = m.word := wordOf_eq _ _

theorem dueFault?_withOperands (h : m.WellFormed) {w : UInt16} {o : Opcode}
    (ho : Opcode.ofWordBy? Opcode.table w = some o) :
    m.dueFault? (withOperands w o) = m.wordFault? w := by
  have hfit := Opcode.fits_iff_of_ofWordBy? ho
  have hs := h.stack_size
  have hc := h.stack_capacity
  rw [CallStack.size] at hs
  simp only [wordFault?, ← Opcode.fits_ret_iff, hfit, operand_eq]
  cases o with
  | ret => simp [dueFault?, withOperands]
  | call =>
    have hl : m.stack.capacity ≤ m.stack.size ↔ m.stack.frames.length = 16 := by
      rw [hc, CallStack.size]
      omega
    simp [dueFault?, withOperands, hl, Instruction.size]
  | draw => simp [dueFault?, withOperands, h.memory_size, val_countField]
  | storeDigits => simp [dueFault?, withOperands, h.memory_size]
  | storeRegisters | loadRegisters =>
    simp [dueFault?, withOperands, h.memory_size, val_xField]
  | skipDown | skipUp => simp [dueFault?, withOperands, Nat.lt_iff_add_one_le]
  | _ => simp [dueFault?, withOperands]

theorem fault_cycle (h : m.WellFormed) : m.cycle.fault = m.cycleFault? := by
  have hsize := h.memory_size
  cases hb : m.isBlocked with
  | true =>
    rw [cycle_of_isBlocked hb, cycleFault?, if_pos hb]
    rfl
  | false =>
    have hn : ¬ m.isBlocked = true := by rw [hb]; decide
    by_cases hlo : m.pc < 0x200
    · have hf : m.memory.fetch m.pc = .error (.protectedFetch m.pc) := if_pos hlo
      rw [cycle_of_unfetched hb hf, cycleFault?, if_neg hn, if_pos hlo]
      rfl
    · by_cases hhi : 4096 < m.pc + 2
      · have hf : m.memory.fetch m.pc = .error (.fetchOutside m.pc) := by
          rw [Memory.fetch, hsize]
          exact (if_neg hlo).trans (if_pos hhi)
        rw [cycle_of_unfetched hb hf, cycleFault?, if_neg hn, if_neg hlo, if_pos hhi]
        rfl
      · have hf : m.memory.fetch m.pc = decode m.word := by
          rw [Memory.fetch, hsize, word_eq]
          exact (if_neg hlo).trans (if_neg hhi)
        rw [cycleFault?, if_neg hn, if_neg hlo, if_neg hhi]
        cases hd : decode m.word with
        | error f =>
          obtain ⟨rfl, hno⟩ := (decode_eq_error_iff _ _).mp hd
          rw [cycle_of_unfetched hb (hf.trans hd), if_pos hno]
          rfl
        | ok i =>
          obtain ⟨o, ho, rfl⟩ := (decode_eq_ok_iff _ _).mp hd
          have hi := instruction?_eq_some_iff.mpr ⟨hb, hf.trans hd⟩
          rw [fault_cycle_of_instruction? hi, fault_effect h.index_nonneg h.delay,
            dueFault?_withOperands h ho, if_neg]
          intro hno
          exact hno o (Opcode.fits_of_ofWordBy? ho)

theorem family_of_failing_cycle (h : m.WellFormed) {f : Fault} (hf : m.cycle.fault = some f) :
    f.family ≠ .misuse := by
  rw [fault_cycle h, cycleFault?, wordFault?] at hf
  repeat' split at hf
  all_goals cases hf
  all_goals exact nofun

/-- Whatever the host did to the machine, a cycle fails by the fault that is due, and by no
other. -/
theorem fault_cycle_run (stream : Nat → UInt8) (commands : List Command) :
    ((fresh stream).run commands).cycle.fault = ((fresh stream).run commands).cycleFault? :=
  fault_cycle (.ofRun stream commands)

/-- What a cycle leaves that fails: nothing has changed unless an instruction was executed. -/
def CycleResidue (m n : Machine) : Prop :=
  match m.instruction? with
  | some i => m.Residue i n
  | none => n = m

theorem residue_of_executed {n : Machine} {i : Instruction} (hi : m.instruction? = some i)
    (h : m.CycleResidue n) : m.Residue i n := by
  rw [CycleResidue, hi] at h
  exact h

theorem residue_cycle (h : m.WellFormed) {f : Fault} (hf : m.cycle.fault = some f) :
    m.CycleResidue m.cycle.machine := by
  rw [CycleResidue]
  cases m.course with
  | waits hb hc =>
    rw [hc] at hf
    cases hf
  | unfetched g hb hg hc =>
    have hn : m.instruction? = none := by simp [instruction?, hb, hg, Except.toOption]
    rw [hn, hc]
    rfl
  | fails i g hi hg hc =>
    rw [hi, hc]
    exact residue_effect h.index_nonneg h.delay hg
  | succeeds i hi hg hc =>
    rw [hc] at hf
    cases hf

theorem residue_of_failing_cycle (stream : Nat → UInt8) (commands : List Command) {f : Fault}
    (hf : ((fresh stream).run commands).cycle.fault = some f) :
    ((fresh stream).run commands).memory.size = 4096 ∧
      ((fresh stream).run commands).CycleResidue ((fresh stream).run commands).cycle.machine := by
  have h := WellFormed.ofRun stream commands
  exact ⟨h.memory_size, residue_cycle h hf⟩

def storeAtTheEnd : List Command := [.load [0xAF, 0xFE, 0xF3, 0x55] 0x200, .cycle]

theorem fault_storeAtTheEnd (h : m.WellFormed) : (m.run storeAtTheEnd).instruction? =
      some (.storeRegisters 3) ∧
    (m.run storeAtTheEnd).cycle.fault = some (.accessOutside 0x1000) := by
  have hfit : (0x200 : Int) + ([0xAF, 0xFE, 0xF3, 0x55] : List Int).length ≤ 4096 := by decide
  obtain ⟨n, hl, hn, hpc, hidx, hb, hbyte⟩ :=
    h.load_of_fits (Int.le_refl 0x200) hfit (by decide)
  have h0 : n.memory.wordAt 0x200 = 0xAFFE :=
    (congr (congrArg wordOf (hbyte 0 (by decide))) (hbyte 1 (by decide))).trans (by decide)
  have h2 : n.memory.wordAt 0x202 = 0xF355 :=
    (congr (congrArg wordOf (hbyte 2 (by decide))) (hbyte 3 (by decide))).trans (by decide)
  have hset : n.instruction? = some (.setIndex 0xFFE) := by
    refine instruction?_eq_some_iff.mpr ⟨hb, Memory.fetch_eq_ok_iff.mpr ?_⟩
    rw [hpc, hn.memory_size]
    refine ⟨by decide, by decide, ?_⟩
    exact (congrArg decode h0).trans ((decode_eq_ok_iff _ _).mpr ⟨.setIndex, by decide, by decide⟩)
  have hm : m.run storeAtTheEnd = { n with index := 0xFFE, pc := n.pc + 2 } := by
    rw [storeAtTheEnd, run_cons, run_cons, run_nil, perform, hl, perform, cycle_of_success hset rfl]
    simp only [effect, advance, Outcome.done, hn.not_jumped]
    rfl
  have hw := h.run storeAtTheEnd
  rw [hm] at hw ⊢
  have hi : { n with index := 0xFFE, pc := n.pc + 2 }.instruction? = some (.storeRegisters 3) := by
    refine instruction?_eq_some_iff.mpr ⟨hb, Memory.fetch_eq_ok_iff.mpr ?_⟩
    simp only [hpc, hn.memory_size]
    refine ⟨by decide, by decide, ?_⟩
    exact (congrArg decode h2).trans
      ((decode_eq_ok_iff _ _).mpr ⟨.storeRegisters, by decide, by decide⟩)
  refine ⟨hi, ?_⟩
  rw [fault_cycle_of_instruction? hi, fault_effect hw.index_nonneg hw.delay, dueFault?,
    hw.memory_size]
  exact if_pos (by decide : (4096 : Int) ≤ 4094 + 3)

theorem residue_storeAtTheEnd :
    ((fresh fun _ => 0).run storeAtTheEnd).cycle.fault = some (.accessOutside 0x1000) ∧
    ((fresh fun _ => 0).run storeAtTheEnd).memory.size = 4096 ∧
    ((fresh fun _ => 0).run storeAtTheEnd).Residue (.storeRegisters 3)
      ((fresh fun _ => 0).run storeAtTheEnd).cycle.machine := by
  obtain ⟨hi, hf⟩ := fault_storeAtTheEnd (.fresh fun _ => 0)
  refine ⟨hf, ?_⟩
  exact (residue_of_failing_cycle (fun _ => 0) storeAtTheEnd hf).imp_right (residue_of_executed hi)

end ChipEight.Machine
