import ChipEight.Proofs.Adjustment

namespace ChipEight

def Draws.remaining (d : Draws) (k : Nat) : UInt8 := d.stream (d.used + k)

theorem Draws.remaining_advance (d : Draws) :
    d.advance.remaining = fun k => d.remaining (k + 1) := by
  funext k
  rw [remaining, remaining, advance, Nat.add_assoc, Nat.add_comm 1]

namespace Machine

def withDraws (m : Machine) (d : Draws) : Machine := { m with draws := d }

def Alike (m n : Machine) : Prop := ∃ d, n = m.withDraws d ∧ m.draws.remaining = d.remaining

end Machine

namespace Outcome

def withDraws (o : Outcome) (d : Draws) : Outcome := { o with machine := o.machine.withDraws d }

/-- The same fault and the same reports, and machines that are alike. -/
structure Alike (o p : Outcome) : Prop where
  fault : o.fault = p.fault
  events : o.events = p.events
  machine : o.machine.Alike p.machine

theorem Alike.after {o p : Outcome} (h : o.Alike p) (events : List Event) :
    (o.after events).Alike (p.after events) :=
  ⟨h.fault, congrArg (events ++ ·) h.events, h.machine⟩

theorem Alike.andThen {o p : Outcome} (h : o.Alike p) {next : Machine → Outcome}
    (hn : ∀ m n : Machine, m.Alike n → (next m).Alike (next n)) :
    (o.andThen next).Alike (p.andThen next) := by
  cases hf : o.fault with
  | some f =>
    rw [andThen_of_some hf, andThen_of_some (h.fault.symm.trans hf)]
    exact h
  | none =>
    rw [andThen_of_none hf, andThen_of_none (h.fault.symm.trans hf), h.events]
    exact (hn _ _ h.machine).after _

end Outcome

namespace Machine

section

variable (m : Machine) (d : Draws)

theorem spares_draws {i : Instruction} (hi : i.opcode ≠ .random) :
    Adjustment.Spares { draws := fun _ => d } m i := by
  cases i with
  | random x mask => exact absurd rfl hi
  | skipDown x | skipUp x => exact fun _ _ => rfl
  | readDelay x | setDelay x | setSound x => rfl
  | _ => trivial

theorem effect_withDraws {i : Instruction} (hi : i.opcode ≠ .random) :
    (m.withDraws d).effect i = (m.effect i).withDraws d :=
  effect_adjust (spares_draws m d hi)

theorem load_withDraws (program : List Int) (address : Int) :
    (m.withDraws d).load program address = (m.load program address).withDraws d := by
  have hm : (m.withDraws d).prepared.memory = m.prepared.memory := rfl
  simp only [load, hm]
  split <;> rfl

theorem tick_withDraws : (m.withDraws d).tick = m.tick.withDraws d := by
  have hb : (m.withDraws d).isBlocked = m.isBlocked := rfl
  simp only [tick, hb]
  split <;> rfl

theorem press_withDraws (key : Int) : (m.withDraws d).press key = (m.press key).withDraws d := by
  simp only [press, withDraws]
  split <;> rfl

theorem interrupt_withDraws (key : Int) :
    (m.withDraws d).interrupt key = (m.interrupt key).withDraws d := by
  simp only [interrupt, withDraws]
  split
  · rfl
  · split <;> rfl

theorem release_withDraws (key : Int) :
    (m.withDraws d).release key = (m.release key).withDraws d := by
  have hl : (m.withDraws d).digitLimit = m.digitLimit := rfl
  simp only [release, hl]
  split
  · exact interrupt_withDraws { m with keypad := _ } d _
  · rfl

end

namespace Alike

variable {m n : Machine}

theorem map {f : Machine → Outcome} (h : m.Alike n)
    (hf : ∀ (m : Machine) d, f (m.withDraws d) = (f m).withDraws d) : (f m).Alike (f n) := by
  obtain ⟨d, rfl, hd⟩ := h
  have hdraws : (f m).machine.draws = m.draws :=
    congrArg (fun o => o.machine.draws) (hf m m.draws)
  rw [hf]
  refine ⟨rfl, rfl, d, rfl, ?_⟩
  rw [hdraws]
  exact hd

theorem effect (h : m.Alike n) (i : Instruction) : (m.effect i).Alike (n.effect i) := by
  by_cases hi : i.opcode = .random
  · cases i with
    | random x mask =>
      obtain ⟨d, rfl, hd⟩ := h
      have hnext : d.next = m.draws.next := (congrFun hd 0).symm
      have hrest : m.draws.advance.remaining = d.advance.remaining := by
        rw [Draws.remaining_advance, Draws.remaining_advance, hd]
      refine ⟨rfl, rfl, d.advance, ?_, hrest⟩
      simp only [Machine.effect, Outcome.done, withDraws, setRegister, hnext]
    | _ => cases hi
  · exact h.map (f := (·.effect i)) fun m d => effect_withDraws m d hi

theorem cycle (h : m.Alike n) : m.cycle.Alike n.cycle := by
  have hb : n.isBlocked = m.isBlocked := by
    obtain ⟨d, rfl, -⟩ := h
    rfl
  have hfetch : n.memory.fetch n.pc = m.memory.fetch m.pc ∧ n.pc = m.pc := by
    obtain ⟨d, rfl, -⟩ := h
    exact ⟨rfl, rfl⟩
  rw [Machine.cycle, Machine.cycle, hb, hfetch.1]
  split
  · exact h.map (f := .done) fun _ _ => rfl
  · split
    · next i _ =>
      rw [execute, execute, hfetch.2]
      refine ((h.effect i).after _).andThen fun _ _ hn => ?_
      exact hn.map (f := (.done ·.advance)) fun _ _ => rfl
    · next f _ => exact h.map (f := (.failed · f)) fun _ _ => rfl

theorem perform (h : m.Alike n) (c : Command) : (m.perform c).Alike (n.perform c) := by
  cases c with
  | cycle => exact h.cycle
  | reset => exact h.map (f := (.done ·.reset)) fun _ _ => rfl
  | load program address =>
    exact h.map (f := (·.load program address)) fun m d => load_withDraws m d program address
  | tick => exact h.map (f := (.done ·.tick)) fun m d => congrArg Outcome.done (tick_withDraws m d)
  | press key => exact h.map (f := (·.press key)) fun m d => press_withDraws m d key
  | release key => exact h.map (f := (·.release key)) fun m d => release_withDraws m d key
  | markSeen => exact h.map (f := (.done ·.markSeen)) fun _ _ => rfl

theorem run (h : m.Alike n) (commands : List Command) :
    (m.run commands).Alike (n.run commands) := by
  induction commands generalizing m n with
  | nil => exact h
  | cons c commands ih => exact ih (h.perform c).machine

end Alike

end Machine

end ChipEight
