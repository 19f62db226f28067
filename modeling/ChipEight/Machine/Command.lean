import ChipEight.Machine.Cycle

namespace ChipEight

inductive Command where
  | reset
  | load (program : List Int) (address : Int)
  | cycle
  | tick
  | press (key : Int)
  | release (key : Int)
  | markSeen
  deriving DecidableEq

namespace Machine

def perform (m : Machine) : Command → Outcome
  | .reset => .done m.reset
  | .load program address => m.load program address
  | .cycle => m.cycle
  | .tick => .done m.tick
  | .press key => m.press key
  | .release key => m.release key
  | .markSeen => .done m.markSeen

def run (m : Machine) (commands : List Command) : Machine :=
  commands.foldl (fun n c => (n.perform c).machine) m

/-- Performs commands up to the first one that fails. -/
def performEach (m : Machine) : List Command → Outcome
  | [] => .done m
  | c :: cs => (m.perform c).andThen fun n => n.performEach cs

@[simp] theorem run_nil (m : Machine) : m.run [] = m := rfl

@[simp] theorem run_cons (m : Machine) (c : Command) (cs : List Command) :
    m.run (c :: cs) = (m.perform c).machine.run cs := rfl

theorem run_append (m : Machine) (cs ds : List Command) :
    m.run (cs ++ ds) = (m.run cs).run ds := by
  simp only [run, List.foldl_append]

theorem performEach_append (m : Machine) (cs ds : List Command) :
    m.performEach (cs ++ ds) = (m.performEach cs).andThen fun n => n.performEach ds := by
  induction cs generalizing m with
  | nil => rfl
  | cons c cs ih =>
    simp only [List.cons_append, performEach]
    cases hf : (m.perform c).fault with
    | some f => simp only [Outcome.andThen, hf]
    | none =>
      simp only [Outcome.andThen_of_none hf, ih]
      cases hg : ((m.perform c).machine.performEach cs).fault <;>
        simp [Outcome.andThen, Outcome.after, hg]

theorem fault_performEach {cs : List Command}
    (h : ∀ c ∈ cs, ∀ n : Machine, (n.perform c).fault = none) {m : Machine} :
    (m.performEach cs).fault = none := by
  induction cs generalizing m with
  | nil => rfl
  | cons c cs ih =>
    rw [performEach, Outcome.andThen_of_none (h c List.mem_cons_self m)]
    exact ih fun d hd => h d (List.mem_cons_of_mem c hd)

theorem performEach_replicate_cycle (n : Nat) (m : Machine) :
    m.performEach (List.replicate n .cycle) = cycles n m := by
  induction n generalizing m with
  | zero => rfl
  | succ n ih =>
    rw [List.replicate_succ, performEach, cycles_succ, funext ih]
    rfl

end Machine

end ChipEight
