import ChipEight.Proofs.Assembling
import ChipEight.Proofs.Spelling
import ChipEight.Proofs.Tracing

namespace ChipEight

structure Reading where
  address : Int
  word : UInt16
  instruction : Instruction
  decode_eq : Instruction.decode word = .ok instruction

namespace Event

variable {p q : Int} {i j : Instruction}

theorem line_executed (p : Int) (i : Instruction) : (executed p i).line =
    "DEBUG mem_addr: " ++ (Text.address p ++ ("    instruction: " ++ i.text)) := by
  simp [line, text, level, Level.name, ← String.toList_inj]

theorem line_executed_inj : (executed p i).line = (executed q j).line ↔ p = q ∧ i = j := by
  constructor
  · intro h
    have hsep : ' ' ∈ "    instruction: ".toList := by decide
    have hblank : ∀ a : Int, ' ' ∉ (Text.address a).toList := Text.not_mem_address (by decide)
    rw [line_executed, line_executed, String.append_right_inj] at h
    obtain ⟨hp, hi⟩ := Text.append_sep_inj hsep (hblank p) (hblank q) h
    exact ⟨Text.address_inj.mp hp, Instruction.text_inj.mp hi⟩
  · rintro ⟨rfl, rfl⟩
    rfl

end Event

namespace Reading

variable {r s : Reading}

def line (r : Reading) : String := (Event.executed r.address r.instruction).line

theorem eq_iff : r = s ↔ r.address = s.address ∧ r.word = s.word := by
  constructor
  · rintro rfl
    exact ⟨rfl, rfl⟩
  · obtain ⟨p, v, i, hi⟩ := r
    obtain ⟨q, w, j, hj⟩ := s
    rintro ⟨rfl, rfl⟩
    cases hi.symm.trans hj
    rfl

theorem line_inj : r.line = s.line ↔ r = s := by
  refine ⟨fun h => ?_, congrArg line⟩
  obtain ⟨ha, hi⟩ := Event.line_executed_inj.mp h
  have hr := Instruction.spells_of_decode r.decode_eq
  have hs := Instruction.spells_of_decode s.decode_eq
  exact eq_iff.mpr ⟨ha, hr.word_eq hs (congrArg Instruction.parts hi)⟩

end Reading

namespace Machine

variable {m : Machine} {i : Instruction}

theorem decode_of_instruction? (h : m.instruction? = some i) :
    Instruction.decode (m.memory.wordAt m.pc.toNat) = .ok i :=
  (Memory.fetch_eq_ok_iff.mp (instruction?_eq_some_iff.mp h).2).2.2

/-- What a command makes a machine fetch, also if it fails then. -/
def reading? (m : Machine) : Command → Option Reading
  | .cycle =>
    match h : m.instruction? with
    | some i => some ⟨m.pc, m.memory.wordAt m.pc.toNat, i, decode_of_instruction? h⟩
    | none => none
  | _ => none

def readings (m : Machine) : List Command → List Reading
  | [] => []
  | c :: cs => (m.reading? c).toList ++ (m.perform c).machine.readings cs

def trace (m : Machine) (commands : List Command) : List String :=
  (m.accounts .debug commands).flatMap Account.trace

structure TellsApart (m n : Machine) : Prop where
  line_eq_iff : ∀ (p q : Int) (v w : UInt16) (i j : Instruction),
    Instruction.decode v = .ok i → Instruction.decode w = .ok j →
    (({ m with pc := p }.executeLogged .debug i).trace =
      ({ n with pc := q }.executeLogged .debug j).trace ↔ p = q ∧ v = w)
  trace_eq_iff : ∀ commands commands' : List Command,
    m.trace commands = n.trace commands' ↔ m.readings commands = n.readings commands'

theorem map_line_attempt? (m : Machine) (c : Command) :
    (m.attempt? c).map Visit.line = (m.reading? c).map Reading.line := by
  cases c with
  | cycle =>
    simp only [attempt?, reading?]
    split <;> next h => simp [h, Visit.line, Reading.line]
  | _ => rfl

theorem trace_eq_map_line (m : Machine) (commands : List Command) :
    m.trace commands = (m.readings commands).map Reading.line := by
  induction commands generalizing m with
  | nil => rfl
  | cons c commands ih =>
    have hc : (m.performLogged .debug c).trace = ((m.reading? c).toList).map Reading.line := by
      rw [performLogged_eq, trace_perform, map_line_attempt?, Option.toList_map]
    have hm : (m.performLogged .debug c).machine = (m.perform c).machine :=
      congrArg Account.machine (performLogged_eq .debug m c)
    rw [trace, accounts, List.flatMap_cons, hc, hm, readings, List.map_append, ← ih]
    rfl

theorem trace_executeLogged (m : Machine) (r : Reading) :
    ({ m with pc := r.address }.executeLogged .debug r.instruction).trace = [r.line] := by
  rw [executeLogged_eq]
  exact Account.trace_ofOutcome_executed _ _ ⟨r.address, r.instruction⟩ (reportedBy_effect _ _)

/-- From the trace of a machine can be told which words it has gone through, and where. -/
theorem traces_tell_apart (m n : Machine) : TellsApart m n where
  line_eq_iff p q v w i j hv hw := by
    rw [trace_executeLogged m ⟨p, v, i, hv⟩, trace_executeLogged n ⟨q, w, j, hw⟩,
      List.singleton_inj, Reading.line_inj, Reading.eq_iff]
  trace_eq_iff commands commands' := by
    rw [trace_eq_map_line, trace_eq_map_line]
    exact List.map_inj_right fun _ _ => Reading.line_inj.mp

end Machine

end ChipEight
