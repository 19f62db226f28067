import ChipEight.Machine.Logging
import ChipEight.Proofs.History
import ChipEight.Proofs.Shape

namespace ChipEight

/-- An instruction has an operand for a piece of a template, and it is the one of the word. -/
def Piece.FilledBy (w : UInt16) (i : Instruction) : Piece → Prop
  | text _ => True
  | x => i.x? = some (Instruction.xField w)
  | y => i.y? = some (Instruction.yField w)
  | address => i.address? = some (Instruction.addressField w)
  | byte => i.number? = some (Instruction.byteField w).toNat
  | count => i.number? = some (Instruction.countField w).val

def Visit.line (v : Visit) : String := (Event.executed v.address v.instruction).line

def Outcome.result (o : Outcome) : Machine × Option Halt := (o.machine, o.fault.map .fault)

namespace Machine

def outcomes (m : Machine) : List Command → List Outcome
  | [] => []
  | c :: cs => m.perform c :: (m.perform c).machine.outcomes cs

/-- The instruction that a command makes a machine fetch, also if it fails then. -/
def attempt? (m : Machine) : Command → Option Visit
  | .cycle => m.instruction?.map fun i => ⟨m.pc, i⟩
  | _ => none

def attempts (m : Machine) : List Command → List (Option Visit)
  | [] => []
  | c :: cs => m.attempt? c :: (m.perform c).machine.attempts cs

structure TracesAttempts (stream : Nat → UInt8) (commands : List Command) : Prop where
  filled : ∀ w i, Instruction.decode w = .ok i → ∀ p ∈ i.opcode.template, p.FilledBy w i
  results_eq : ∀ level, ((fresh stream).accounts level commands).map Account.result =
    ((fresh stream).outcomes commands).map Outcome.result
  traces_eq : ((fresh stream).accounts .debug commands).map Account.trace =
    ((fresh stream).attempts commands).map fun v => (v.map Visit.line).toList

end Machine

theorem Instruction.filledBy_of_decode {w : UInt16} {i : Instruction} (h : decode w = .ok i) :
    ∀ p ∈ i.opcode.template, p.FilledBy w i := by
  obtain ⟨o, -, rfl⟩ := (decode_eq_ok_iff w i).mp h
  cases o <;>
    simp [withOperands, opcode, Opcode.template, Piece.FilledBy, x?, y?, address?, number?]

namespace Outcome

def ReportedBy (r : Reporter) (o : Outcome) : Prop := ∀ e ∈ o.events, e.reporter = r

variable {r : Reporter} {o : Outcome}

theorem ReportedBy.nothing (h : o.events = []) : o.ReportedBy r := by
  intro e he
  rw [h] at he
  exact absurd he List.not_mem_nil

theorem ReportedBy.done (m : Machine) : (Outcome.done m).ReportedBy r := .nothing rfl

theorem ReportedBy.failed (m : Machine) (f : Fault) : (Outcome.failed m f).ReportedBy r :=
  .nothing rfl

theorem ReportedBy.single {e : Event} (h : o.events = [e]) (he : e.reporter = r) :
    o.ReportedBy r := by
  intro d hd
  rw [h] at hd
  rw [List.mem_singleton.mp hd, he]

end Outcome

namespace Account

variable {level : Level} {o : Outcome}

theorem proceed_ofOutcome : (ofOutcome level o).proceed =
    ofOutcome level (o.andThen fun n => .done n.advance) := by
  cases hf : o.fault <;> simp [ofOutcome, proceed, Outcome.andThen, Outcome.after, Outcome.done, hf]

theorem trace_of_reportedBy {r : Reporter} (h : o.ReportedBy r) (hr : r ≠ .processor) :
    (ofOutcome level o).trace = [] := by
  simp only [trace, ofOutcome, List.map_eq_nil_iff, List.filter_eq_nil_iff, List.mem_map,
    List.mem_filter, decide_eq_true_eq]
  rintro _ ⟨e, ⟨he, -⟩, rfl⟩
  exact fun hp => hr ((h e he).symm.trans hp)

theorem trace_ofOutcome_executed (m : Machine) (f : Option Fault) (v : Visit)
    (h : o.ReportedBy .memory) :
    (ofOutcome .debug ⟨m, f, .executed v.address v.instruction :: o.events⟩).trace = [v.line] := by
  have ho : (ofOutcome .debug ⟨m, f, o.events⟩).trace = [] := trace_of_reportedBy h (by decide)
  exact congrArg (v.line :: ·) ho

end Account

namespace Machine

variable {m : Machine} {c : Command}

theorem executeLogged_eq (level : Level) (i : Instruction) :
    m.executeLogged level i = .ofOutcome level (m.execute i) := by
  rw [executeLogged, Instruction.recorded?_eq_some]
  cases hl : Event.reaches level (.executed m.pc i) <;>
    simp [Account.ofOutcome, Account.after, execute, Outcome.after, hl]

theorem performLogged_eq (level : Level) (m : Machine) (c : Command) :
    m.performLogged level c = .ofOutcome level (m.perform c) := by
  cases c with
  | cycle =>
    rw [performLogged, perform, cycleLogged, cycle]
    split
    · rfl
    · cases m.memory.fetch m.pc with
      | ok i => exact (congrArg _ (executeLogged_eq level i)).trans Account.proceed_ofOutcome
      | error f => rfl
  | _ => rfl

theorem accounts_eq (level : Level) (m : Machine) (cs : List Command) :
    m.accounts level cs = (m.outcomes cs).map (Account.ofOutcome level) := by
  induction cs generalizing m with
  | nil => rfl
  | cons c cs ih =>
    rw [accounts, outcomes, List.map_cons, performLogged_eq, ih]
    rfl

theorem reportedBy_storeRegisters (m : Machine) (rs : List Register) :
    (m.storeRegisters rs).ReportedBy .memory := by
  induction rs generalizing m with
  | nil => exact .done m
  | cons r rs ih =>
    simp only [storeRegisters]
    split
    · exact .failed m _
    · split
      · exact ih _
      · exact .failed m _

theorem reportedBy_loadRegisters (m : Machine) (rs : List Register) :
    (m.loadRegisters rs).ReportedBy .memory := by
  induction rs generalizing m with
  | nil => exact .done m
  | cons r rs ih =>
    simp only [loadRegisters]
    split
    · exact .failed m _
    · split
      · exact ih _
      · exact .failed m _

theorem reportedBy_skipIfKey (m : Machine) (key : UInt8) (down : Bool) :
    (m.skipIfKey key down).ReportedBy .memory := by
  by_cases hk : key.toNat < 16
  · rw [skipIfKey_of_lt hk]
    exact .done _
  · rw [skipIfKey_of_le (Nat.le_of_not_lt hk)]
    exact .failed m _

theorem reportedBy_effect (m : Machine) (i : Instruction) :
    (m.effect i).ReportedBy .memory := by
  cases i with
  | ret =>
    simp only [effect, returnFromCall]
    split
    · exact .done _
    · exact .failed _ _
  | call a =>
    simp only [effect, callTo]
    split
    · exact .done _
    · exact .failed _ _
  | draw x y n =>
    simp only [effect, drawSprite, Memory.readSprite]
    cases m.memory.sprite? m.index n.val with
    | some sprite => exact .nothing rfl
    | none =>
      cases m.digitLimit.exceeded? (n.val : Int) with
      | some limit => exact .failed _ _
      | none => exact .single rfl rfl
  | skipDown x | skipUp x => exact reportedBy_skipIfKey m _ _
  | readDelay x =>
    simp only [effect, readDelay]
    split
    · exact .done _
    · exact .failed _ _
  | storeDigits x =>
    simp only [effect, storeDigits]
    split
    · exact .failed _ _
    · exact .done _
  | storeRegisters x => exact reportedBy_storeRegisters m _
  | loadRegisters x => exact reportedBy_loadRegisters m _
  | _ => exact .done _

theorem reportedBy_interrupt (m : Machine) (key : Int) :
    (m.interrupt key).ReportedBy .machine := by
  simp only [interrupt]
  split
  · exact .done m
  · split
    · exact .single rfl rfl
    · exact .failed m _

theorem reportedBy_perform (hc : c ≠ .cycle) : (m.perform c).ReportedBy .machine := by
  cases c with
  | cycle => exact absurd rfl hc
  | reset => exact .done m.reset
  | tick => exact .done m.tick
  | markSeen => exact .done m.markSeen
  | load program address =>
    simp only [perform, load]
    split
    · exact .single rfl rfl
    · exact .failed _ _
  | press key =>
    simp only [perform, press]
    split
    · exact .done _
    · exact .failed _ _
  | release key =>
    simp only [perform, release]
    split
    · exact reportedBy_interrupt _ _
    · exact .failed _ _

theorem trace_perform (m : Machine) (c : Command) :
    (Account.ofOutcome .debug (m.perform c)).trace = ((m.attempt? c).map Visit.line).toList := by
  cases c with
  | cycle =>
    rw [perform, attempt?]
    cases m.course with
    | waits hb hc =>
      have hi : m.instruction? = none := if_pos hb
      rw [hc, hi]
      rfl
    | unfetched f hb hf hc =>
      have hi : m.instruction? = none := by simp [instruction?, hb, hf, Except.toOption]
      rw [hc, hi]
      rfl
    | fails i f hi _ hc | succeeds i hi _ hc =>
      rw [hc, hi]
      exact Account.trace_ofOutcome_executed _ _ ⟨m.pc, i⟩ (reportedBy_effect m i)
  | _ => exact Account.trace_of_reportedBy (reportedBy_perform (by simp)) (by decide)

theorem map_trace_outcomes (m : Machine) (cs : List Command) :
    (m.outcomes cs).map (fun o => (Account.ofOutcome .debug o).trace) =
      (m.attempts cs).map fun v => (v.map Visit.line).toList := by
  induction cs generalizing m with
  | nil => rfl
  | cons c cs ih => rw [outcomes, attempts, List.map_cons, List.map_cons, trace_perform, ih]

/-- Whatever the host does to a machine: a log makes no difference to it, and a log of the lowest
level holds the instructions that the machine comes to execute. -/
theorem traces_attempts (stream : Nat → UInt8) (commands : List Command) :
    TracesAttempts stream commands where
  filled _ _ := Instruction.filledBy_of_decode
  results_eq level := by
    rw [accounts_eq, List.map_map]
    rfl
  traces_eq := by
    rw [accounts_eq, List.map_map]
    exact map_trace_outcomes _ _

end Machine

end ChipEight
