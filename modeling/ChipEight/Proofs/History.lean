import ChipEight.Proofs.Frame

namespace ChipEight

structure Visit where
  address : Int
  instruction : Instruction
  deriving DecidableEq

namespace Machine

/-- What a command makes the machine execute. Instructions that fail do not count. -/
def visit? (m : Machine) : Command → Option Visit
  | .cycle => if m.cycle.fault.isSome then none else m.instruction?.map fun i => ⟨m.pc, i⟩
  | _ => none

def visits (m : Machine) : List Command → List Visit
  | [] => []
  | c :: cs => (m.visit? c).toList ++ (m.perform c).machine.visits cs

def Throughout (m : Machine) (P : Machine → Command → Prop) (commands : List Command) : Prop :=
  ∀ before c after, commands = before ++ c :: after → P (m.run before) c

variable {m : Machine} {i : Instruction}

@[simp] theorem visits_nil : m.visits [] = [] := rfl

@[simp] theorem visits_cons (c : Command) (cs : List Command) :
    m.visits (c :: cs) = (m.visit? c).toList ++ (m.perform c).machine.visits cs := rfl

theorem visit?_of_none (hi : m.instruction? = none) : m.visit? .cycle = none := by
  simp [visit?, hi]

theorem visit?_of_fault {f : Fault} (hf : m.cycle.fault = some f) : m.visit? .cycle = none := by
  simp [visit?, hf]

theorem visit?_of_success (hi : m.instruction? = some i) (hf : m.cycle.fault = none) :
    m.visit? .cycle = some ⟨m.pc, i⟩ := by
  simp [visit?, hi, hf]

/-- What a command keeps, told the instruction that it executes, is kept by a run, told all of
them. -/
theorem visits_induction {P : Machine → List Visit → Prop} {cs : List Command}
    (hp : ∀ n t, ∀ c ∈ cs, n.WellFormed → P n t →
      P (n.perform c).machine (t ++ (n.visit? c).toList))
    (h : m.WellFormed) {t : List Visit} (ht : P m t) : P (m.run cs) (t ++ m.visits cs) := by
  induction cs generalizing m t with
  | nil =>
    rw [visits_nil, List.append_nil]
    exact ht
  | cons c cs ih =>
    have hc := hp m t c List.mem_cons_self h ht
    have hcs := ih (fun n u d hd => hp n u d (List.mem_cons_of_mem c hd)) (h.perform c) hc
    rwa [List.append_assoc] at hcs

namespace Throughout

variable {P : Machine → Command → Prop} {c : Command} {commands : List Command}

theorem nil (m : Machine) : m.Throughout P [] := by
  intro before c after he
  cases before <;> cases he

theorem cons (hc : P m c) (h : (m.perform c).machine.Throughout P commands) :
    m.Throughout P (c :: commands) := by
  intro before d after he
  cases before with
  | nil =>
    cases he
    exact hc
  | cons b before =>
    cases he
    exact h before d after rfl

theorem head (h : m.Throughout P (c :: commands)) : P m c :=
  h [] c commands rfl

theorem tail (h : m.Throughout P (c :: commands)) :
    (m.perform c).machine.Throughout P commands :=
  fun before d after he => h (c :: before) d after (congrArg (c :: ·) he)

theorem concat (h : m.Throughout P commands) (hc : P (m.run commands) c) :
    m.Throughout P (commands ++ [c]) := by
  induction commands generalizing m with
  | nil => exact .cons hc (.nil _)
  | cons d commands ih => exact .cons h.head (ih h.tail hc)

end Throughout

end Machine

end ChipEight
