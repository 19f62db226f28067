import ChipEight.Session

namespace ChipEight.HostLoop

variable {Surface Refusal : Type}

/-- What a batch of inputs tells the machine, up to the first request to quit. -/
def forwarded : List Input → List Command
  | [] | .quit :: _ | .down .escape :: _ => []
  | .down (.keypad k) :: rest => .press k.val :: forwarded rest
  | .up (.keypad k) :: rest => .release k.val :: forwarded rest
  | _ :: rest => forwarded rest

def AsksToQuit (batch : List Input) : Prop := .quit ∈ batch ∨ .down .escape ∈ batch

instance (batch : List Input) : Decidable (AsksToQuit batch) :=
  inferInstanceAs (Decidable (_ ∨ _))

def share (cpuHz : Int) : Nat := (max 1 (cpuHz / 60)).toNat

def commands (cpuHz : Int) (batch : List Input) : List Command :=
  forwarded batch ++ List.replicate (share cpuHz) .cycle ++ [.tick, .markSeen]

structure Turn where
  batch : List Input
  before : Machine
  outcome : Outcome

def turn (cpuHz : Int) (batch : List Input) (m : Machine) : Turn :=
  ⟨batch, m, m.performEach (commands cpuHz batch)⟩

/-- The turns of the loop up to one that is asked to quit or in which a command fails. Behind the
last batch the loop is asked to quit. -/
def turns (cpuHz : Int) : List (List Input) → Machine → List Turn
  | [], m => [turn cpuHz [.quit] m]
  | batch :: rest, m =>
    let t := turn cpuHz batch m
    if t.outcome.fault ≠ none ∨ AsksToQuit batch then [t]
    else t :: turns cpuHz rest t.outcome.machine

/-- A pass goes through the machines of a turn. It also logs the fault. -/
structure Turn.Matches (t : Turn) (p : Pass Surface) : Prop where
  tick : p.tick = 60
  before : p.before = t.before
  after : p.after = t.outcome.machine
  fault : p.fault = t.outcome.fault
  shown : t.outcome.fault ≠ none → p.shown = false
  events : p.events = t.outcome.events ++ (t.outcome.fault.map .stopped).toList

inductive Turn.MatchAll : List Turn → List (Pass Surface) → Prop where
  | nil : MatchAll [] []
  | cons {t : Turn} {p : Pass Surface} {ts : List Turn} {ps : List (Pass Surface)}
    (h : t.Matches p) (hs : MatchAll ts ps) : MatchAll (t :: ts) (p :: ps)

theorem commands_eq_forwarded (batch : List Input) : Input.commands batch = forwarded batch := by
  induction batch with
  | nil => rfl
  | cons i rest ih =>
    cases i with
    | quit => rfl
    | other => exact ih
    | down key =>
      cases key with
      | escape => rfl
      | keypad k => exact congrArg (Command.press k.val :: ·) ih
      | other => exact ih
    | up key =>
      cases key with
      | keypad k => exact congrArg (Command.release k.val :: ·) ih
      | escape | other => exact ih

theorem isQuit_iff (i : Input) : i.isQuit = true ↔ i = .quit ∨ i = .down .escape := by
  cases i with
  | down key => cases key <;> simp [Input.isQuit]
  | _ => simp [Input.isQuit]

theorem any_isQuit_iff (batch : List Input) : batch.any Input.isQuit = true ↔ AsksToQuit batch := by
  simp only [List.any_eq_true, isQuit_iff, AsksToQuit]
  constructor
  · rintro ⟨i, hi, rfl | rfl⟩
    · exact .inl hi
    · exact .inr hi
  · rintro (h | h)
    · exact ⟨_, h, .inl rfl⟩
    · exact ⟨_, h, .inr rfl⟩

def ran (n : Nat) (batch : List Input) (m : Machine) : Outcome :=
  (m.performEach (Input.commands batch)).andThen (Machine.burst n)

theorem ran_eq_performEach (n : Nat) (batch : List Input) (m : Machine) :
    ran n batch m = m.performEach (forwarded batch ++ List.replicate n .cycle) := by
  rw [Machine.performEach_append, ← commands_eq_forwarded,
    funext (Machine.performEach_replicate_cycle _), ran, funext (Machine.burst_eq_cycles _)]

theorem performEach_commands (cpuHz : Int) (batch : List Input) (m : Machine) :
    m.performEach (commands cpuHz batch) =
      (ran (share cpuHz) batch m).andThen fun n => .done n.tick.markSeen := by
  rw [commands, Machine.performEach_append, ran_eq_performEach]
  rfl

section

variable (d : Display Surface Refusal) (scale : Int)

theorem pass_of_some {n : Nat} {batch : List Input} {m : Machine} {f : Fault}
    (h : (ran n batch m).fault = some f) (w : Surface) : Session.pass d scale n batch m w =
      ⟨60, m, (ran n batch m).machine, w, false, (ran n batch m).events ++ [.stopped f],
        some f⟩ := by
  simp only [Session.pass, ran] at h ⊢
  rw [h]
  rfl

theorem pass_of_none {n : Nat} {batch : List Input} {m : Machine}
    (h : (ran n batch m).fault = none) (w : Surface) :
    let ticked := (ran n batch m).machine.tick
    Session.pass d scale n batch m w =
      ⟨60, m, ticked.markSeen,
        if ticked.screen.dirty then d.render scale w ticked.screen else w,
        ticked.screen.dirty, (ran n batch m).events, none⟩ := by
  simp only [Session.pass, Session.passHz, ran] at h ⊢
  rw [h]
  simp only []
  split
  · next hd => simp only [hd, if_true]
  · next hd =>
    have hclean := Bool.eq_false_iff.mpr hd
    rw [Machine.markSeen_eq hclean]
    simp only [hclean, Bool.false_eq_true, if_false]

theorem turn_matches (cpuHz : Int) (batch : List Input) (m : Machine) (w : Surface) :
    (turn cpuHz batch m).Matches (Session.pass d scale (share cpuHz) batch m w) := by
  have hc := performEach_commands cpuHz batch m
  cases hf : (ran (share cpuHz) batch m).fault with
  | some f =>
    rw [Outcome.andThen_of_some hf] at hc
    rw [pass_of_some d scale hf]
    constructor <;> simp [turn, hc, hf]
  | none =>
    rw [Outcome.andThen_of_none hf] at hc
    rw [pass_of_none d scale hf]
    constructor <;> simp [turn, hc, Outcome.done, Outcome.after]

/-- The session makes the turns of the loop and no others. -/
theorem turns_match (cpuHz : Int) (batches : List (List Input)) (m : Machine) (w : Surface) :
    Turn.MatchAll (turns cpuHz batches m) (Session.passes d scale (share cpuHz) batches m w) := by
  induction batches generalizing m w with
  | nil => exact .cons (turn_matches d scale cpuHz [.quit] m w) .nil
  | cons batch rest ih =>
    have hm := turn_matches d scale cpuHz batch m w
    have hstop : ((Session.pass d scale (share cpuHz) batch m w).fault.isSome ||
        batch.any Input.isQuit) = true ↔
        (turn cpuHz batch m).outcome.fault ≠ none ∨ AsksToQuit batch := by
      rw [Bool.or_eq_true, any_isQuit_iff, hm.fault, Option.isSome_iff_ne_none]
    simp only [turns, Session.passes]
    by_cases hs : (turn cpuHz batch m).outcome.fault ≠ none ∨ AsksToQuit batch
    · rw [if_pos hs, if_pos (hstop.mpr hs)]
      exact .cons hm .nil
    · rw [if_neg hs, if_neg (fun hc => hs (hstop.mp hc)), hm.after]
      exact .cons hm (ih _ _)

end

end ChipEight.HostLoop
