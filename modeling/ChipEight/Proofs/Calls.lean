import ChipEight.Proofs.Nesting

namespace ChipEight

def Command.keepsProgram : Command → Bool
  | .reset | .load _ _ => false
  | _ => true

theorem Command.eq_markSeen_or_isStimulus {c : Command} (hk : c.keepsProgram) (hc : c ≠ .cycle) :
    c = .markSeen ∨ c.isStimulus := by
  cases c with
  | reset | load _ _ => cases hk
  | cycle => exact absurd rfl hc
  | markSeen => exact .inl rfl
  | tick | press _ | release _ => exact .inr rfl

namespace Machine

open Nesting Instruction

def returnAddress (c : Nat × Visit) : Int := c.2.address + 2

/-- What the calls that have not been returned from say about stack, calls and returns. -/
structure FollowsCalls (m : Machine) (calls : List (Nat × Visit)) : Prop where
  stack : m.stack.addresses = calls.map returnAddress
  ret_fault : m.instruction? = some .ret →
    m.cycle.fault = if calls.length = 0 then some .emptyStack else none
  ret_pc : m.instruction? = some .ret →
    ∀ c, calls.getLast? = some c → m.cycle.machine.pc = returnAddress c
  call_fault : ∀ a, m.instruction? = some (.call a) →
    m.cycle.fault = if calls.length = 16 then some (.fullStack (m.pc + 2)) else none
  stack_eq : ∀ c : Command, c.keepsProgram →
    (c = .cycle → ∀ i, m.instruction? = some i → i.opcode ≠ .call ∧ i.opcode ≠ .ret) →
    (m.perform c).machine.stack = m.stack

/-- The stack of a machine that has executed the instructions of a history since it was loaded. -/
def StackOf (m : Machine) (t : List Visit) : Prop :=
  ∃ calls, Cut t calls ∧ m.stack.addresses = calls.map returnAddress

variable {m : Machine} {i : Instruction} {t : List Visit}

theorem stack_of_failing_cycle (h : m.WellFormed) (hi : m.instruction? = some i) {f : Fault}
    (hf : m.cycle.fault = some f) : m.cycle.machine.stack = m.stack := by
  rw [fault_cycle_of_instruction? hi] at hf
  obtain ⟨memory, registers, hn⟩ := (residue_effect h.index_nonneg h.delay hf).exists_eq
  rw [cycle_of_fault hi hf, hn]

theorem stack_of_plain_cycle (h : m.WellFormed)
    (hi : ∀ i, m.instruction? = some i → i.opcode ≠ .call ∧ i.opcode ≠ .ret) :
    m.cycle.machine.stack = m.stack := by
  cases hj : m.instruction? with
  | none => rw [machine_cycle_of_none hj]
  | some j => exact (frame_cycle h hj).stack (hi j hj).1 (hi j hj).2

theorem stack_perform {c : Command} (hk : c.keepsProgram) (hc : c ≠ .cycle) :
    (m.perform c).machine.stack = m.stack := by
  rcases Command.eq_markSeen_or_isStimulus hk hc with rfl | hs
  · rfl
  · obtain ⟨_, _, _, _, _, hm⟩ := m.exists_perform_of_isStimulus hs
    rw [hm]

theorem fault_of_ret (h : m.WellFormed) (hi : m.instruction? = some .ret) :
    m.cycle.fault = if m.stack.frames = [] then some .emptyStack else none := by
  rw [fault_cycle_of_instruction? hi, fault_effect h.index_nonneg h.delay, dueFault?]

theorem fault_of_call (h : m.WellFormed) {a : Fin 4096} (hi : m.instruction? = some (.call a)) :
    m.cycle.fault = if m.stack.frames.length = 16 then some (.fullStack (m.pc + 2)) else none := by
  have hfull : m.stack.capacity ≤ m.stack.size ↔ m.stack.frames.length = 16 := by
    have hs := h.stack_size
    rw [h.stack_capacity, CallStack.size] at *
    omega
  rw [fault_cycle_of_instruction? hi, fault_effect h.index_nonneg h.delay]
  simp only [dueFault?, hfull, Instruction.size]

theorem cycle_of_ret (hi : m.instruction? = some .ret) {a : Int} {rest : List Int}
    (hs : m.stack.frames = a :: rest) :
    m.cycle.machine.pc = a ∧ m.cycle.machine.stack.frames = rest := by
  have he := returnFromCall_of_cons hs
  have hf : (m.effect .ret).fault = none := congrArg Outcome.fault he
  rw [cycle_of_success hi hf, effect, he]
  exact ⟨rfl, rfl⟩

theorem cycle_of_call {a : Fin 4096} (hi : m.instruction? = some (.call a))
    (hs : m.stack.size < m.stack.capacity) :
    m.cycle.machine.stack.frames = (m.pc + 2) :: m.stack.frames := by
  have he := callTo_of_lt hs a.val
  have hf : (m.effect (.call a)).fault = none := congrArg Outcome.fault he
  rw [cycle_of_success hi hf, effect, he]
  rfl

theorem exists_of_frames_cons {calls : List (Nat × Visit)} {a : Int} {rest : List Int}
    (h : m.stack.addresses = calls.map returnAddress) (hs : m.stack.frames = a :: rest) :
    ∃ older c, calls = older ++ [c] ∧ returnAddress c = a ∧
      rest.reverse = older.map returnAddress := by
  rw [CallStack.addresses, hs, List.reverse_cons] at h
  obtain ⟨older, last, rfl, hrest, hlast⟩ := List.map_eq_append_iff.mp h.symm
  obtain ⟨c, rfl, hc⟩ := List.map_eq_singleton_iff.mp hlast
  exact ⟨older, c, rfl, hc, hrest.symm⟩

namespace StackOf

theorem append_ret (h : m.WellFormed) (ht : m.StackOf t) (hi : m.instruction? = some .ret)
    (hf : m.cycle.fault = none) : m.cycle.machine.StackOf (t ++ [⟨m.pc, .ret⟩]) := by
  obtain ⟨calls, hcut, hs⟩ := ht
  cases hframes : m.stack.frames with
  | nil =>
    rw [fault_of_ret h hi, if_pos hframes] at hf
    cases hf
  | cons a rest =>
    obtain ⟨older, c, rfl, -, hrest⟩ := exists_of_frames_cons hs hframes
    refine ⟨older, hcut.append_return rfl, ?_⟩
    rw [CallStack.addresses, (cycle_of_ret hi hframes).2, hrest]

theorem append_call (h : m.WellFormed) (ht : m.StackOf t) {a : Fin 4096}
    (hi : m.instruction? = some (.call a)) (hf : m.cycle.fault = none) :
    m.cycle.machine.StackOf (t ++ [⟨m.pc, .call a⟩]) := by
  obtain ⟨calls, hcut, hs⟩ := ht
  have hlt : m.stack.size < m.stack.capacity := by
    have hsize := h.stack_size
    rw [fault_of_call h hi, ite_eq_right_iff] at hf
    rw [h.stack_capacity, CallStack.size] at *
    have hne : m.stack.frames.length ≠ 16 := by
      intro he
      cases hf he
    omega
  refine ⟨calls ++ [(t.length, ⟨m.pc, .call a⟩)], hcut.append_call (v := ⟨m.pc, .call a⟩) rfl, ?_⟩
  rw [CallStack.addresses, cycle_of_call hi hlt, List.reverse_cons, List.map_append, ← hs]
  rfl

theorem append_plain (h : m.WellFormed) (ht : m.StackOf t) (hi : m.instruction? = some i)
    (hc : i.opcode ≠ .call) (hr : i.opcode ≠ .ret) :
    m.cycle.machine.StackOf (t ++ [⟨m.pc, i⟩]) := by
  obtain ⟨calls, hcut, hs⟩ := ht
  refine ⟨calls, hcut.append_plain hc hr, ?_⟩
  rw [(frame_cycle h hi).stack hc hr, hs]

theorem of_stack_eq {n : Machine} (ht : m.StackOf t) (hs : n.stack = m.stack) : n.StackOf t := by
  rw [StackOf, hs]
  exact ht

theorem cycle (h : m.WellFormed) (ht : m.StackOf t) :
    m.cycle.machine.StackOf (t ++ (m.visit? .cycle).toList) := by
  cases hi : m.instruction? with
  | none =>
    rw [visit?_of_none hi, machine_cycle_of_none hi, Option.toList_none, List.append_nil]
    exact ht
  | some i =>
    cases hf : m.cycle.fault with
    | some f =>
      rw [visit?_of_fault hf, Option.toList_none, List.append_nil]
      exact ht.of_stack_eq (stack_of_failing_cycle h hi hf)
    | none =>
      rw [visit?_of_success hi hf, Option.toList_some]
      by_cases hr : i.opcode = .ret
      · obtain rfl := opcode_eq_ret_iff.mp hr
        exact ht.append_ret h hi hf
      · by_cases hc : i.opcode = .call
        · obtain ⟨a, rfl⟩ := opcode_eq_call_iff.mp hc
          exact ht.append_call h hi hf
        · exact ht.append_plain h hi hc hr

theorem perform (h : m.WellFormed) (ht : m.StackOf t) {c : Command} (hk : c.keepsProgram) :
    (m.perform c).machine.StackOf (t ++ (m.visit? c).toList) := by
  by_cases hc : c = .cycle
  · subst hc
    exact ht.cycle h
  · have hv : m.visit? c = none := by
      cases c with
      | cycle => exact absurd rfl hc
      | _ => rfl
    rw [hv, Option.toList_none, List.append_nil]
    exact ht.of_stack_eq (stack_perform hk hc)

theorem run (h : m.WellFormed) (ht : m.StackOf t) {cs : List Command}
    (hk : ∀ c ∈ cs, c.keepsProgram) : (m.run cs).StackOf (t ++ m.visits cs) :=
  visits_induction (fun _ _ c hc hn hs => hs.perform hn (hk c hc)) h ht

end StackOf

theorem stackOf_load (m : Machine) (program : List Int) (address : Int) :
    (m.load program address).machine.StackOf [] := by
  refine ⟨[], .none .nil, ?_⟩
  rw [load]
  split <;> rfl

theorem followsCalls (h : m.WellFormed) {calls : List (Nat × Visit)}
    (hs : m.stack.addresses = calls.map returnAddress) : m.FollowsCalls calls := by
  have hlength : calls.length = m.stack.frames.length := by
    rw [← List.length_map returnAddress, ← hs, CallStack.addresses, List.length_reverse]
  refine ⟨hs, fun hi => ?_, fun hi c hc => ?_, fun a hi => ?_, fun c hk hp => ?_⟩
  · simp only [fault_of_ret h hi, hlength, List.length_eq_zero_iff]
  · cases hframes : m.stack.frames with
    | nil =>
      rw [hframes, List.length_nil] at hlength
      rw [List.length_eq_zero_iff.mp hlength] at hc
      cases hc
    | cons a rest =>
      obtain ⟨older, d, rfl, rfl, -⟩ := exists_of_frames_cons hs hframes
      rw [List.getLast?_concat, Option.some.injEq] at hc
      rw [(cycle_of_ret hi hframes).1, hc]
  · simp only [fault_of_call h hi, hlength]
  · by_cases hc : c = .cycle
    · subst hc
      exact stack_of_plain_cycle h (hp rfl)
    · exact stack_perform hk hc

/-- Calls and returns match like brackets, however a program was loaded and whatever was done
before. -/
theorem pending_calls_of_session (stream : Nat → UInt8) (before : List Command)
    (program : List Int) (address : Int) {commands : List Command}
    (hk : ∀ c ∈ commands, c.keepsProgram) :
    let m := (((fresh stream).run before).load program address).machine
    ∃ calls, Pending (m.visits commands) calls ∧ (m.run commands).FollowsCalls calls := by
  intro m
  have h : m.WellFormed := (WellFormed.ofRun stream before).load program address
  obtain ⟨calls, hcut, hs⟩ := (stackOf_load _ program address).run h hk
  exact ⟨calls, hcut.pending, followsCalls (h.run commands) hs⟩

def returningAtOnce : List Command :=
  [.press 5, .cycle, .tick, .release 99, .cycle, .release 5, .cycle]

theorem pending_calls_returningAtOnce :
    (∀ c ∈ returningAtOnce, c.keepsProgram) ∧
    ∃ calls, Pending
        ((((fresh fun _ => 0).run []).load [0x22, 0x02, 0x00, 0xEE] 0x200).machine.visits
          returningAtOnce) calls ∧
      ((((fresh fun _ => 0).run []).load [0x22, 0x02, 0x00, 0xEE] 0x200).machine.run
        returningAtOnce).FollowsCalls calls :=
  ⟨by decide, pending_calls_of_session (fun _ => 0) [] [0x22, 0x02, 0x00, 0xEE] 0x200 (by decide)⟩

end Machine

end ChipEight
