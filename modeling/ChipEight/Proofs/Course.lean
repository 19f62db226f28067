import ChipEight.Proofs.Effect

namespace ChipEight

namespace Memory

theorem fetch_eq_ok_iff {m : Memory} {address : Int} {i : Instruction} :
    m.fetch address = .ok i ↔ 0x200 ≤ address ∧ address + 2 ≤ m.size ∧
      Instruction.decode (m.wordAt address.toNat) = .ok i := by
  by_cases hlo : address < programStart
  · rw [fetch, if_pos hlo]
    exact ⟨nofun, fun hf => absurd hlo (Int.not_lt.mpr hf.1)⟩
  · by_cases hhi : (m.size : Int) < address + Instruction.size
    · rw [fetch, if_neg hlo, if_pos hhi]
      exact ⟨nofun, fun hf => absurd hhi (Int.not_lt.mpr hf.2.1)⟩
    · rw [fetch, if_neg hlo, if_neg hhi]
      exact ⟨fun hd => ⟨Int.not_lt.mp hlo, Int.not_lt.mp hhi, hd⟩, fun hf => hf.2.2⟩

end Memory

namespace Machine

variable {m : Machine} {i : Instruction}

def instruction? (m : Machine) : Option Instruction :=
  if m.isBlocked then none else (m.memory.fetch m.pc).toOption

theorem instruction?_eq_some_iff :
    m.instruction? = some i ↔ m.isBlocked = false ∧ m.memory.fetch m.pc = .ok i := by
  cases hb : m.isBlocked <;> cases hf : m.memory.fetch m.pc <;>
    simp [instruction?, hb, hf, Except.toOption]

theorem cycle_of_unfetched {f : Fault} (hb : m.isBlocked = false)
    (hf : m.memory.fetch m.pc = .error f) : m.cycle = .failed m f := by
  simp [cycle, hb, hf]

theorem cycle_of_fault {f : Fault} (h : m.instruction? = some i)
    (hf : (m.effect i).fault = some f) : m.cycle =
      ⟨(m.effect i).machine, some f, .executed m.pc i :: (m.effect i).events⟩ := by
  obtain ⟨hb, hi⟩ := instruction?_eq_some_iff.mp h
  simp [cycle, hb, hi, execute, Outcome.andThen, Outcome.after, hf]

theorem cycle_of_success (h : m.instruction? = some i)
    (hf : (m.effect i).fault = none) : m.cycle =
      ⟨(m.effect i).machine.advance, none, .executed m.pc i :: (m.effect i).events⟩ := by
  obtain ⟨hb, hi⟩ := instruction?_eq_some_iff.mp h
  simp [cycle, hb, hi, execute, Outcome.andThen, Outcome.after, hf, Outcome.done]

inductive Course (m : Machine) : Prop where
  | waits (hb : m.isBlocked = true) (hc : m.cycle = .done m)
  | unfetched (f : Fault) (hb : m.isBlocked = false) (hf : m.memory.fetch m.pc = .error f)
    (hc : m.cycle = .failed m f)
  | fails (i : Instruction) (f : Fault) (hi : m.instruction? = some i)
    (hf : (m.effect i).fault = some f)
    (hc : m.cycle = ⟨(m.effect i).machine, some f, .executed m.pc i :: (m.effect i).events⟩)
  | succeeds (i : Instruction) (hi : m.instruction? = some i) (hf : (m.effect i).fault = none)
    (hc : m.cycle =
      ⟨(m.effect i).machine.advance, none, .executed m.pc i :: (m.effect i).events⟩)

theorem course (m : Machine) : m.Course := by
  cases hb : m.isBlocked with
  | true => exact .waits hb (cycle_of_isBlocked hb)
  | false =>
    cases hi : m.memory.fetch m.pc with
    | error f => exact .unfetched f hb hi (cycle_of_unfetched hb hi)
    | ok i =>
      have hs := instruction?_eq_some_iff.mpr ⟨hb, hi⟩
      cases hf : (m.effect i).fault with
      | some f => exact .fails i f hs hf (cycle_of_fault hs hf)
      | none => exact .succeeds i hs hf (cycle_of_success hs hf)

theorem fault_cycle_of_instruction? (h : m.instruction? = some i) :
    m.cycle.fault = (m.effect i).fault := by
  cases hf : (m.effect i).fault with
  | some f => rw [cycle_of_fault h hf]
  | none => rw [cycle_of_success h hf]

/-- The outcomes of executing an instruction, by itself or in the cycle that fetches it. -/
inductive Executes (m : Machine) (i : Instruction) : Outcome → Prop where
  | alone : m.Executes i (m.execute i)
  | fetched (hi : m.instruction? = some i) : m.Executes i m.cycle

theorem Executes.fault_eq {o : Outcome} (h : m.Executes i o) : o.fault = (m.effect i).fault := by
  cases h with
  | alone => rfl
  | fetched hi => exact fault_cycle_of_instruction? hi

theorem Executes.exists_machine_eq {o : Outcome} (h : m.Executes i o) :
    ∃ pc jumped, o.machine = { (m.effect i).machine with pc, jumped } := by
  cases h with
  | alone => exact ⟨_, _, rfl⟩
  | fetched hi =>
    cases hf : (m.effect i).fault with
    | some f =>
      rw [cycle_of_fault hi hf]
      exact ⟨_, _, rfl⟩
    | none =>
      rw [cycle_of_success hi hf]
      exact ⟨_, _, rfl⟩

theorem Executes.screen_eq {o : Outcome} (h : m.Executes i o) :
    o.machine.screen = (m.effect i).machine.screen := by
  obtain ⟨pc, jumped, hmachine⟩ := h.exists_machine_eq
  rw [hmachine]

theorem pc_of_instruction? (h : m.instruction? = some i) :
    0x200 ≤ m.pc ∧ m.pc + 2 ≤ m.memory.size := by
  have hf := Memory.fetch_eq_ok_iff.mp (instruction?_eq_some_iff.mp h).2
  exact ⟨hf.1, hf.2.1⟩

def behind (m : Machine) (skips : Bool) : Int := if skips then m.pc + 4 else m.pc + 2

/-- Where the machine goes on after an instruction that succeeds. -/
def successor (m : Machine) : Instruction → Int
  | .ret => m.stack.frames.headD 0
  | .jump a | .call a => a.val
  | .jumpOffset a => a.val + m.registers[(0 : Register)].toNat
  | .skipEqByte x b => m.behind (m.registers[x] == b)
  | .skipNeByte x b => m.behind (m.registers[x] != b)
  | .skipEq x y => m.behind (m.registers[x] == m.registers[y])
  | .skipNe x y => m.behind (m.registers[x] != m.registers[y])
  | .skipDown x => m.behind (m.keypad.isDown (Fin.ofNat 16 m.registers[x].toNat))
  | .skipUp x => m.behind !m.keypad.isDown (Fin.ofNat 16 m.registers[x].toNat)
  | _ => m.behind false

theorem pc_advance_of_not_jumped (h : m.jumped = false) :
    m.advance.pc = m.behind false := by
  simp only [advance, h]
  rfl

theorem pc_advance_skipIf (h : m.jumped = false) (b : Bool) :
    (m.skipIf b).advance.pc = m.behind b := by
  cases b with
  | false => exact pc_advance_of_not_jumped h
  | true =>
    have hp : (m.skipIf true).advance.pc = m.pc + 2 + 2 := by
      simp only [skipIf, if_true, skip, advance, h]
      rfl
    rw [hp]
    simp only [behind, if_true]
    omega

theorem pc_advance_skipIfKey (h : m.jumped = false) {key : UInt8} {down : Bool}
    (hf : (m.skipIfKey key down).fault = none) : (m.skipIfKey key down).machine.advance.pc =
      m.behind (m.keypad.isDown (Fin.ofNat 16 key.toNat) == down) := by
  by_cases hk : key.toNat < 16
  · have he : Fin.ofNat 16 key.toNat = ⟨key.toNat, hk⟩ := Fin.ext (Nat.mod_eq_of_lt hk)
    rw [skipIfKey_of_lt hk, he]
    exact pc_advance_skipIf h _
  · rw [skipIfKey_of_le (by omega)] at hf
    cases hf

theorem pc_advance_effect (hi : 0 ≤ m.index) (hd : 0 ≤ m.delay ∧ m.delay < 256)
    (hj : m.jumped = false) (hf : (m.effect i).fault = none) :
    (m.effect i).machine.advance.pc = m.successor i := by
  cases i with
  | ret =>
    cases hs : m.stack.frames with
    | nil =>
      rw [effect, returnFromCall_of_nil hs] at hf
      cases hf
    | cons a rest =>
      rw [effect, returnFromCall_of_cons hs]
      simp [successor, hs, advance, Outcome.done]
  | jump a | jumpOffset a => rfl
  | call a =>
    by_cases hs : m.stack.capacity ≤ m.stack.size
    · rw [effect, callTo_of_full hs] at hf
      cases hf
    · rw [effect, callTo_of_lt (by omega)]
      rfl
  | skipEqByte x b | skipNeByte x b | skipEq x y | skipNe x y => exact pc_advance_skipIf hj _
  | skipDown x =>
    have hp := pc_advance_skipIfKey hj hf
    rw [beq_true] at hp
    exact hp
  | skipUp x =>
    have hp := pc_advance_skipIfKey hj hf
    rw [beq_false] at hp
    exact hp
  | draw x y n =>
    obtain ⟨_, screen, erased, -, -, he⟩ := drawSprite_of_success hi hf
    rw [effect, he]
    exact pc_advance_of_not_jumped hj
  | readDelay x =>
    rw [effect, readDelay_eq hd]
    exact pc_advance_of_not_jumped hj
  | storeDigits x =>
    by_cases hm : (m.memory.size : Int) ≤ m.index + 2
    · rw [effect, storeDigits_of_le _ hm] at hf
      cases hf
    · rw [effect, storeDigits_of_lt _ (by omega)]
      exact pc_advance_of_not_jumped hj
  | storeRegisters x =>
    obtain ⟨memory, hs, -⟩ := storeRegisters_upTo hi x
    rw [effect, hs]
    exact pc_advance_of_not_jumped hj
  | loadRegisters x =>
    obtain ⟨registers, hs, -⟩ := loadRegisters_upTo hi x
    rw [effect, hs]
    exact pc_advance_of_not_jumped hj
  | _ => exact pc_advance_of_not_jumped hj

end Machine

end ChipEight
