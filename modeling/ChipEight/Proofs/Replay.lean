import ChipEight.Proofs.History
import ChipEight.Proofs.Likeness

namespace ChipEight

theorem Instruction.opcode_eq_random_iff {i : Instruction} :
    i.opcode = .random ↔ ∃ x mask, i = .random x mask := by
  cases i <;> simp [opcode]

def drawCount (t : List Visit) : Nat := t.countP fun v => v.instruction.opcode = .random

theorem drawCount_append (t u : List Visit) : drawCount (t ++ u) = drawCount t + drawCount u :=
  List.countP_append

def Draws.plus (d : Draws) (k : Nat) : Draws := { d with used := d.used + k }

namespace Machine

/-- The machine that has drawn as many bytes, but from another supply. -/
def withStream (m : Machine) (stream : Nat → UInt8) : Machine :=
  m.withDraws ⟨stream, m.draws.used⟩

end Machine

def Outcome.withStream (o : Outcome) (stream : Nat → UInt8) : Outcome :=
  { o with machine := o.machine.withStream stream }

namespace Machine

def TakesByte (m : Machine) (c : Command) : Prop :=
  c = .cycle ∧ ∃ x mask, m.instruction? = some (.random x mask)

structure DrawsInOrder (stream : Nat → UInt8) (commands : List Command) : Prop where
  draws_eq : ((fresh stream).run commands).draws =
    ⟨stream, drawCount ((fresh stream).visits commands)⟩
  drawn : ∀ x mask, ((fresh stream).run commands).instruction? = some (.random x mask) →
    ((fresh stream).run commands).cycle.fault = none ∧
    ((fresh stream).run commands).cycle.machine.draws =
      ⟨stream, drawCount ((fresh stream).visits commands) + 1⟩ ∧
    ((fresh stream).run commands).cycle.machine.registers[x] =
      stream (drawCount ((fresh stream).visits commands)) &&& mask
  not_drawn : ∀ c, ¬ ((fresh stream).run commands).TakesByte c →
    (((fresh stream).run commands).perform c).machine.draws = ((fresh stream).run commands).draws
  /-- Bytes beyond those that have been drawn make no difference. -/
  replays : ∀ (other : Nat → UInt8) (n : Nat), (∀ k < n, other k = stream k) →
    drawCount ((fresh stream).visits commands) ≤ n →
    (fresh other).run commands = ((fresh stream).run commands).withStream other ∧
    ∀ c, drawCount ((fresh stream).visits (commands ++ [c])) ≤ n →
      ((fresh other).run commands).perform c =
        (((fresh stream).run commands).perform c).withStream other

variable {m : Machine} {c : Command}

theorem perform_withDraws (hc : ¬ m.TakesByte c) (d : Draws) :
    (m.withDraws d).perform c = (m.perform c).withDraws d := by
  cases c with
  | reset | markSeen => rfl
  | load program address => exact load_withDraws m d program address
  | cycle =>
    refine cycle_adjust fun i hi => spares_draws m d fun ho => ?_
    obtain ⟨x, mask, rfl⟩ := Instruction.opcode_eq_random_iff.mp ho
    exact hc ⟨rfl, x, mask, hi⟩
  | tick => exact congrArg Outcome.done (tick_withDraws m d)
  | press key => exact press_withDraws m d key
  | release key => exact release_withDraws m d key

theorem draws_perform_of_not (hc : ¬ m.TakesByte c) :
    (m.perform c).machine.draws = m.draws :=
  congrArg (fun o => o.machine.draws) (perform_withDraws hc m.draws)

theorem instruction?_of_visit? {v : Visit} (hv : m.visit? c = some v) :
    c = .cycle ∧ m.instruction? = some v.instruction := by
  cases c with
  | cycle =>
    simp only [visit?] at hv
    split at hv
    · cases hv
    · obtain ⟨i, hi, rfl⟩ := Option.map_eq_some_iff.mp hv
      exact ⟨rfl, hi⟩
  | _ => cases hv

theorem drawCount_visit? (hc : m.TakesByte c) : drawCount (m.visit? c).toList = 1 := by
  obtain ⟨rfl, x, mask, hi⟩ := hc
  rw [visit?_of_success hi (fault_cycle_of_instruction? hi)]
  rfl

theorem drawCount_visit?_of_not (hc : ¬ m.TakesByte c) : drawCount (m.visit? c).toList = 0 := by
  refine List.countP_eq_zero.mpr fun v hv ho => ?_
  obtain ⟨x, mask, hr⟩ := Instruction.opcode_eq_random_iff.mp (of_decide_eq_true ho)
  obtain ⟨he, hi⟩ := instruction?_of_visit? (Option.mem_toList.mp hv)
  exact hc ⟨he, x, mask, hr ▸ hi⟩

theorem draws_perform (m : Machine) (c : Command) :
    (m.perform c).machine.draws = m.draws.plus (drawCount (m.visit? c).toList) := by
  by_cases hc : m.TakesByte c
  · rw [drawCount_visit? hc]
    obtain ⟨rfl, x, mask, hi⟩ := hc
    rw [perform, cycle_of_success hi rfl]
    rfl
  · rw [drawCount_visit?_of_not hc, draws_perform_of_not hc]
    rfl

theorem draws_run (m : Machine) (cs : List Command) :
    (m.run cs).draws = m.draws.plus (drawCount (m.visits cs)) := by
  induction cs generalizing m with
  | nil => rfl
  | cons c cs ih =>
    rw [run_cons, ih, draws_perform, visits_cons, drawCount_append]
    simp only [Draws.plus, Nat.add_assoc]

theorem registers_cycle_of_random {x : Register} {mask : UInt8}
    (hi : m.instruction? = some (.random x mask)) :
    m.cycle.machine.registers[x] = m.draws.next &&& mask := by
  rw [cycle_of_success hi rfl]
  exact (RegisterFile.getElem_put m.registers x x (m.draws.next &&& mask)).trans (if_pos rfl)

theorem perform_withStream {stream : Nat → UInt8}
    (hs : ∀ k < (m.perform c).machine.draws.used, stream k = m.draws.stream k) :
    (m.withStream stream).perform c = (m.perform c).withStream stream := by
  by_cases hc : m.TakesByte c
  · have hnext : (m.withStream stream).draws.next = m.draws.next := by
      refine hs m.draws.used ?_
      rw [draws_perform, drawCount_visit? hc]
      exact Nat.lt_succ_self _
    obtain ⟨rfl, x, mask, hi⟩ := hc
    have hi' : (m.withStream stream).instruction? = some (.random x mask) := hi
    rw [perform, perform, cycle_of_success hi rfl, cycle_of_success hi' rfl, effect, effect, hnext]
    rfl
  · rw [Outcome.withStream, withStream, withStream, draws_perform_of_not hc]
    exact perform_withDraws hc _

theorem run_withStream {stream : Nat → UInt8} {cs : List Command}
    (hs : ∀ k < (m.run cs).draws.used, stream k = m.draws.stream k) :
    (m.withStream stream).run cs = (m.run cs).withStream stream := by
  induction cs generalizing m with
  | nil => rfl
  | cons c cs ih =>
    have hp := draws_perform m c
    have hused : (m.perform c).machine.draws.used ≤ (m.run (c :: cs)).draws.used := by
      rw [run_cons, draws_run]
      exact Nat.le_add_right _ _
    have hc : (m.withStream stream).perform c = (m.perform c).withStream stream :=
      perform_withStream fun k hk => hs k (Nat.lt_of_lt_of_le hk hused)
    rw [run_cons, run_cons, hc]
    refine ih fun k hk => (hs k hk).trans ?_
    rw [hp]
    rfl

theorem draws_run_fresh (stream : Nat → UInt8) (commands : List Command) :
    ((fresh stream).run commands).draws = ⟨stream, drawCount ((fresh stream).visits commands)⟩ := by
  rw [draws_run, Draws.plus, fresh, Nat.zero_add]

/-- Whatever the host does to a machine: every byte that is drawn is the next of its supply, and it
is drawn by an instruction that asks for it. -/
theorem draws_in_order (stream : Nat → UInt8) (commands : List Command) :
    DrawsInOrder stream commands where
  draws_eq := draws_run_fresh stream commands
  drawn x mask hi := by
    have hd := draws_run_fresh stream commands
    have hnext := registers_cycle_of_random hi
    have hused := draws_perform ((fresh stream).run commands) .cycle
    rw [drawCount_visit? ⟨rfl, x, mask, hi⟩, hd] at hused
    rw [hd] at hnext
    exact ⟨fault_cycle_of_instruction? hi, hused, hnext⟩
  not_drawn _ hc := draws_perform_of_not hc
  replays other n ho hn := by
    have hrun : (fresh other).run commands = ((fresh stream).run commands).withStream other := by
      refine run_withStream (m := fresh stream) fun k hk => ho k ?_
      rw [draws_run_fresh] at hk
      exact Nat.lt_of_lt_of_le hk hn
    refine ⟨hrun, fun c hc => ?_⟩
    rw [hrun]
    have hlast : ((fresh stream).run (commands ++ [c])) =
        (((fresh stream).run commands).perform c).machine := run_append _ _ _
    refine perform_withStream fun k hk => ?_
    rw [← hlast, draws_run_fresh] at hk
    rw [draws_run_fresh]
    exact ho k (Nat.lt_of_lt_of_le hk hc)

end Machine

end ChipEight
