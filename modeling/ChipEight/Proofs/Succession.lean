import ChipEight.Proofs.Calls

namespace ChipEight.Machine

/-- Where an instruction leads, if `n` is the machine behind a cycle that has executed it. -/
def LeadsTo (m : Machine) : Instruction → Machine → Prop
  | .jump a, n | .call a, n => n.pc = a.val
  | .jumpOffset a, n => n.pc = a.val + m.registers[(0 : Register)].toNat
  | .ret, n => m.stack.pop = .ok (n.pc, n.stack)
  | .skipEqByte x b, n => n.pc = if m.registers[x] = b then m.pc + 4 else m.pc + 2
  | .skipNeByte x b, n => n.pc = if m.registers[x] ≠ b then m.pc + 4 else m.pc + 2
  | .skipEq x y, n => n.pc = if m.registers[x] = m.registers[y] then m.pc + 4 else m.pc + 2
  | .skipNe x y, n => n.pc = if m.registers[x] ≠ m.registers[y] then m.pc + 4 else m.pc + 2
  | .skipDown x, n => ∃ k : Key, k.val = m.registers[x].toNat ∧
      n.pc = if m.keypad.isDown k then m.pc + 4 else m.pc + 2
  | .skipUp x, n => ∃ k : Key, k.val = m.registers[x].toNat ∧
      n.pc = if ¬ m.keypad.isDown k then m.pc + 4 else m.pc + 2
  | _, n => n.pc = m.pc + 2

structure GoesOn (m : Machine) : Prop where
  waits : m.isBlocked = true → m.cycle.fault = none ∧ m.cycle.machine.pc = m.pc
  leads : m.isBlocked = false → m.cycle.fault = none →
    ∃ i, m.memory.fetch m.pc = .ok i ∧ m.LeadsTo i m.cycle.machine
  stays : ∀ commands : List Command, (∀ c ∈ commands, c.keepsProgram) → m.visits commands = [] →
    (m.run commands).pc = m.pc
  not_jumped : m.jumped = false
  not_jumped_later : ∀ later : List Command, (m.cycle.machine.run later).jumped = false

variable {m : Machine} {i : Instruction}

theorem behind_decide (p : Prop) [Decidable p] :
    m.behind (decide p) = if p then m.pc + 4 else m.pc + 2 := by
  by_cases hp : p <;> simp [behind, hp]

theorem behind_not_decide (p : Prop) [Decidable p] :
    m.behind (!decide p) = if ¬ p then m.pc + 4 else m.pc + 2 := by
  rw [← decide_not]
  exact behind_decide _

theorem exists_key_of_skipIfKey {key : UInt8} {down : Bool}
    (hf : (m.skipIfKey key down).fault = none) : ∃ k : Key, k.val = key.toNat := by
  rw [fault_skipIfKey] at hf
  by_cases hk : 16 ≤ key.toNat
  · rw [if_pos hk] at hf
    cases hf
  · exact ⟨⟨key.toNat, Nat.not_le.mp hk⟩, rfl⟩

theorem pop_of_ret (hf : (m.effect .ret).fault = none) :
    m.stack.pop = .ok ((m.effect .ret).machine.advance.pc, (m.effect .ret).machine.stack) := by
  cases hs : m.stack.frames with
  | nil =>
    rw [effect, returnFromCall_of_nil hs] at hf
    cases hf
  | cons a rest =>
    rw [effect, returnFromCall_of_cons hs, CallStack.pop, hs]
    rfl

theorem leadsTo_effect (h : m.WellFormed) (hf : (m.effect i).fault = none) :
    m.LeadsTo i (m.effect i).machine.advance := by
  have hpc := pc_advance_effect h.index_nonneg h.delay h.not_jumped hf
  cases i with
  | ret => exact pop_of_ret hf
  | skipEqByte x b | skipEq x y => exact hpc.trans (behind_decide _)
  | skipNeByte x b | skipNe x y => exact hpc.trans (behind_not_decide _)
  | skipDown x =>
    obtain ⟨k, hk⟩ := exists_key_of_skipIfKey hf
    refine ⟨k, hk, hpc.trans ?_⟩
    rw [successor, ← hk, Fin.ofNat_val_eq_self]
    rfl
  | skipUp x =>
    obtain ⟨k, hk⟩ := exists_key_of_skipIfKey hf
    refine ⟨k, hk, hpc.trans ?_⟩
    rw [successor, ← hk, Fin.ofNat_val_eq_self]
    cases hd : m.keypad.isDown k <;> rfl
  | _ => exact hpc

theorem pc_perform (h : m.WellFormed) {c : Command} (hk : c.keepsProgram)
    (hv : m.visit? c = none) : (m.perform c).machine.pc = m.pc := by
  by_cases hc : c = .cycle
  · subst hc
    rw [perform]
    cases m.course with
    | waits _ hc | unfetched _ _ _ hc =>
      rw [hc]
      rfl
    | fails i f hi hf hc =>
      rw [hc]
      exact (residue_effect h.index_nonneg h.delay hf).pc_eq.1
    | succeeds i hi hf hc =>
      rw [visit?_of_success hi (congrArg Outcome.fault hc)] at hv
      cases hv
  · rcases Command.eq_markSeen_or_isStimulus hk hc with rfl | hs
    · rfl
    · obtain ⟨_, _, _, _, _, hm⟩ := m.exists_perform_of_isStimulus hs
      rw [hm]

theorem pc_run (h : m.WellFormed) {commands : List Command} (hk : ∀ c ∈ commands, c.keepsProgram)
    (hv : m.visits commands = []) : (m.run commands).pc = m.pc := by
  induction commands generalizing m with
  | nil => rfl
  | cons c commands ih =>
    rw [visits_cons, List.append_eq_nil_iff, Option.toList_eq_nil_iff] at hv
    have hc := pc_perform h (hk c List.mem_cons_self) hv.1
    exact (ih (h.perform c) (fun d hd => hk d (List.mem_cons_of_mem c hd)) hv.2).trans hc

theorem goesOn (h : m.WellFormed) : m.GoesOn where
  waits hb := by
    rw [cycle_of_isBlocked hb]
    exact ⟨rfl, rfl⟩
  leads hb hf := by
    cases m.course with
    | waits ht _ =>
      rw [hb] at ht
      cases ht
    | unfetched f _ _ hc | fails _ f _ _ hc =>
      rw [hc] at hf
      cases hf
    | succeeds i hi hf hc =>
      refine ⟨i, (instruction?_eq_some_iff.mp hi).2, ?_⟩
      rw [hc]
      exact leadsTo_effect h hf
  stays _ hk hv := pc_run h hk hv
  not_jumped := h.not_jumped
  not_jumped_later later := (h.cycle.run later).not_jumped

/-- Whatever the host did to the machine, a cycle leads to where its instruction says, and leaves
nothing that could lead a later one astray. -/
theorem goes_on_of_run (stream : Nat → UInt8) (commands : List Command) :
    ((fresh stream).run commands).GoesOn :=
  goesOn (.ofRun stream commands)

end ChipEight.Machine
