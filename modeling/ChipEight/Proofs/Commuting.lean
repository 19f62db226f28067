import ChipEight.Proofs.Waiting

namespace ChipEight

def Command.key? : Command → Option Int
  | .press key | .release key => some key
  | _ => none

/-- The adjustment that a command comes to while the machine does not wait. A key that does not
exist adjusts nothing. -/
def Command.adjustment : Command → Adjustment
  | .tick => { timer := Machine.tick.countDown }
  | .press key => { keypad := fun p => ((Key.ofInt? key).map p.press).getD p }
  | .release key => { keypad := fun p => ((Key.ofInt? key).map p.release).getD p }
  | _ => {}

namespace Machine

/-- Two commands end in the same machine in either order, and each of them fails and reports as it
does without the other before it. -/
structure Commutes (m : Machine) (c d : Command) : Prop where
  machine : ((m.perform c).machine.perform d).machine = ((m.perform d).machine.perform c).machine
  fault_left : ((m.perform d).machine.perform c).fault = (m.perform c).fault
  fault_right : ((m.perform c).machine.perform d).fault = (m.perform d).fault
  events_left : ((m.perform d).machine.perform c).events = (m.perform c).events
  events_right : ((m.perform c).machine.perform d).events = (m.perform d).events

def AsksFor (m : Machine) (k : Key) : Instruction → Prop
  | .skipDown x | .skipUp x => m.registers[x].toNat = k.val
  | _ => False

structure Interleaves (m : Machine) : Prop where
  tick_cycle : (∀ i, m.instruction? = some i →
    i.opcode ∉ [.readDelay, .awaitKey, .setDelay, .setSound]) → m.Commutes .tick .cycle
  press_cycle : ∀ k : Key, (∀ i, m.instruction? = some i → ¬ m.AsksFor k i) →
    m.Commutes (.press k.val) .cycle
  release_cycle : m.isBlocked = false → ∀ k : Key,
    (∀ i, m.instruction? = some i → i.opcode ≠ .awaitKey ∧ ¬ m.AsksFor k i) →
    m.Commutes (.release k.val) .cycle
  tick_key : m.isBlocked = false → ∀ c key, c.key? = some key → m.Commutes .tick c
  key_key : m.isBlocked = false → ∀ c d key key', c.key? = some key → d.key? = some key' →
    key ≠ key' → m.Commutes c d

variable {m : Machine}

theorem Commutes.of_adjust {c d : Command} {u : Adjustment} {f : Option Fault}
    (hc : m.perform c = ⟨m.adjust u, f, []⟩)
    (hd : (m.perform d).machine.perform c = ⟨(m.perform d).machine.adjust u, f, []⟩)
    (hu : (m.adjust u).perform d = (m.perform d).adjust u) : m.Commutes c d := by
  constructor <;> simp only [hc, hd, hu, Outcome.adjust]

theorem perform_tick (hb : m.isBlocked = false) :
    m.perform .tick = ⟨m.adjust (Command.adjustment .tick), none, []⟩ := by
  simp only [perform, tick, hb, Bool.false_eq_true, if_false]
  rfl

theorem perform_press (m : Machine) (key : Int) : m.perform (.press key) =
    ⟨m.adjust (Command.press key).adjustment, (Command.press key).keyFault? m.digitLimit, []⟩ := by
  by_cases hk : 0 ≤ key ∧ key < 16
  · obtain ⟨n, rfl⟩ := Int.eq_ofNat_of_zero_le hk.1
    have hn : Key.ofInt? n = some ⟨n, by omega⟩ := Key.ofInt?_val ⟨n, by omega⟩
    simp only [perform, press, Key.ofValue, hn, Command.keyFault?, if_pos hk, adjust,
      Command.adjustment, Option.map_some, Option.getD_some, Outcome.done, id]
  · have hn : Key.ofInt? key = none := (Key.ofInt?_eq_none_iff key).mpr (by omega)
    simp only [perform, press, Key.ofValue, hn, Command.keyFault?, if_neg hk, adjust,
      Command.adjustment, Option.map_none, Option.getD_none, Outcome.failed, id]

theorem perform_release (hw : m.waiting = none) (key : Int) : m.perform (.release key) =
    ⟨m.adjust (Command.release key).adjustment, (Command.release key).keyFault? m.digitLimit,
      []⟩ := by
  by_cases hk : 0 ≤ key ∧ key < 16
  · obtain ⟨n, rfl⟩ := Int.eq_ofNat_of_zero_le hk.1
    have hn : Key.ofInt? n = some ⟨n, by omega⟩ := Key.ofInt?_val ⟨n, by omega⟩
    simp only [perform, release, Key.ofValue, hn, Command.keyFault?, if_pos hk, adjust,
      Command.adjustment, Option.map_some, Option.getD_some, interrupt, hw, Outcome.done, id]
  · have hn : Key.ofInt? key = none := (Key.ofInt?_eq_none_iff key).mpr (by omega)
    simp only [perform, release, Key.ofValue, hn, Command.keyFault?, if_neg hk, adjust,
      Command.adjustment, Option.map_none, Option.getD_none, Outcome.failed, id]

theorem waiting_eq_none_iff : m.waiting = none ↔ m.isBlocked = false := by
  rw [isBlocked, Option.isSome_eq_false_iff, Option.isNone_iff_eq_none]

theorem perform_of_key? (hb : m.isBlocked = false) {c : Command} {key : Int}
    (hk : c.key? = some key) :
    m.perform c = ⟨m.adjust c.adjustment, c.keyFault? m.digitLimit, []⟩ := by
  cases c with
  | press key => exact perform_press m key
  | release key => exact perform_release (waiting_eq_none_iff.mpr hb) key
  | _ => cases hk

theorem exists_adjustment_eq {c : Command} {key : Int} (hc : c.key? = some key) :
    ∃ down, c.adjustment =
      { keypad := fun p =>
          ((Key.ofInt? key).map fun k : Key => p.set k.val down k.isLt).getD p } := by
  cases c with
  | press _ =>
    cases hc
    exact ⟨true, rfl⟩
  | release _ =>
    cases hc
    exact ⟨false, rfl⟩
  | _ => cases hc

theorem adjust_key_comm {c d : Command} {key key' : Int} (hc : c.key? = some key)
    (hd : d.key? = some key') (hne : key ≠ key') :
    (m.adjust c.adjustment).adjust d.adjustment = (m.adjust d.adjustment).adjust c.adjustment := by
  obtain ⟨down, hu⟩ := exists_adjustment_eq hc
  obtain ⟨down', hv⟩ := exists_adjustment_eq hd
  rw [hu, hv]
  cases hk : Key.ofInt? key with
  | none => rfl
  | some k =>
    cases hk' : Key.ofInt? key' with
    | none => rfl
    | some k' =>
      have hkk : k.val ≠ k'.val := by
        have hval := Key.val_of_ofInt? hk
        have hval' := Key.val_of_ofInt? hk'
        omega
      have hset : (m.keypad.set k.val down k.isLt).set k'.val down' k'.isLt =
          (m.keypad.set k'.val down' k'.isLt).set k.val down k.isLt := Vector.set_comm _ _ hkk
      exact congrArg (fun keypad => { m with keypad }) hset

theorem spares_key {c : Command} {k : Key} (hc : c.key? = some (k.val : Int)) {i : Instruction}
    (hi : ¬ m.AsksFor k i) : c.adjustment.Spares m i := by
  obtain ⟨down, hu⟩ := exists_adjustment_eq hc
  rw [hu, Key.ofInt?_val]
  cases i with
  | skipDown x | skipUp x =>
    intro l hl
    have hkl : k.val ≠ l.val := fun he => hi (hl.symm.trans he.symm)
    exact Vector.getElem_set_ne k.isLt l.isLt hkl
  | readDelay x | setDelay x | setSound x => rfl
  | random x mask => rfl
  | _ => trivial

theorem spares_tick {i : Instruction}
    (hi : i.opcode ∉ [.readDelay, .awaitKey, .setDelay, .setSound]) :
    (Command.adjustment .tick).Spares m i := by
  cases i with
  | readDelay x | setDelay x | setSound x => simp [Instruction.opcode] at hi
  | skipDown x | skipUp x => exact fun _ _ => rfl
  | random x mask => rfl
  | _ => trivial

theorem isBlocked_cycle (h : m.WellFormed) (hb : m.isBlocked = false)
    (hi : ∀ i, m.instruction? = some i → i.opcode ≠ .awaitKey) :
    m.cycle.machine.isBlocked = false := by
  rw [← waiting_eq_none_iff] at hb ⊢
  rcases waiting_perform h hb .cycle with hnone | ⟨r, -, hr, -⟩
  · exact hnone
  · exact absurd rfl (hi _ hr)

theorem commutes_tick_cycle (h : m.WellFormed) (hi : ∀ i, m.instruction? = some i →
    i.opcode ∉ [.readDelay, .awaitKey, .setDelay, .setSound]) : m.Commutes .tick .cycle := by
  cases hb : m.isBlocked with
  | true =>
    have hcycle : m.perform .cycle = .done m := cycle_of_isBlocked hb
    have htick : m.perform .tick = .done m := congrArg Outcome.done (if_pos hb)
    constructor <;> simp only [hcycle, htick, Outcome.done]
  | false =>
    have hb' := isBlocked_cycle h hb fun i hj ho => hi i hj (by simp [ho])
    exact .of_adjust (perform_tick hb) (perform_tick hb')
      (cycle_adjust fun i hj => spares_tick (hi i hj))

theorem interleaves (h : m.WellFormed) : m.Interleaves where
  tick_cycle := commutes_tick_cycle h
  press_cycle k hi := by
    refine .of_adjust (perform_press m _) ?_ (cycle_adjust fun i hj => spares_key rfl (hi i hj))
    rw [← digitLimit_perform h .cycle]
    exact perform_press _ _
  release_cycle hb k hi := by
    have hb' := isBlocked_cycle h hb fun i hj => (hi i hj).1
    refine .of_adjust (perform_of_key? hb rfl) ?_
      (cycle_adjust fun i hj => spares_key rfl (hi i hj).2)
    rw [← digitLimit_perform h .cycle]
    exact perform_of_key? hb' rfl
  tick_key hb c key hc := by
    obtain ⟨down, hu⟩ := exists_adjustment_eq hc
    have hd := perform_of_key? hb hc
    have hd' := perform_of_key? (m := m.adjust (Command.adjustment .tick)) hb hc
    refine .of_adjust (perform_tick hb) ?_ ?_
    · rw [hd]
      exact perform_tick (m := m.adjust c.adjustment) hb
    · rw [hd, hd', hu]
      rfl
  key_key hb c d key key' hc hd hne := by
    have hperform := perform_of_key? hb hd
    have hperform' := perform_of_key? (m := m.adjust c.adjustment) hb hd
    refine .of_adjust (perform_of_key? hb hc) ?_ ?_
    · rw [hperform]
      exact perform_of_key? (m := m.adjust d.adjustment) hb hc
    · rw [hperform, hperform', adjust_key_comm hc hd hne]
      rfl

/-- Whatever the host did to the machine: time, keys and cycles are independent of each other but
for the instructions that look at timers and keys, and waits. -/
theorem interleaves_of_run (stream : Nat → UInt8) (commands : List Command) :
    ((fresh stream).run commands).Interleaves :=
  interleaves (.ofRun stream commands)

def askingForZero : List Command := [.load [0xE1, 0x9E] 0x200]

theorem instruction?_askingForZero (stream : Nat → UInt8) :
    ((fresh stream).run askingForZero).instruction? = some (.skipDown 1) ∧
      ((fresh stream).run askingForZero).registers[(1 : Register)] = 0 := by
  have hf : loadFault? [0xE1, 0x9E] 0x200 = none := by decide
  have hd : Instruction.decode (Instruction.wordOf (Memory.byteOf 0xE1) (Memory.byteOf 0x9E)) =
      .ok (.skipDown 1) := rfl
  have hi := instruction?_load (.fresh stream) hf hd
  obtain ⟨memory, -, -, hm⟩ := exists_machine_load (.fresh stream) [0xE1, 0x9E] 0x200
  rw [askingForZero, run_cons, run_nil, perform]
  refine ⟨hi, ?_⟩
  rw [hm]
  exact RegisterFile.getElem_zero 1

theorem interleaves_askingForZero :
    let m := (fresh fun _ => 0).run askingForZero
    m.isBlocked = false ∧ m.instruction? = some (.skipDown 1) ∧ ¬ m.AsksFor 5 (.skipDown 1) ∧
      m.Commutes .tick .cycle ∧ m.Commutes (.press 5) .cycle ∧ m.Commutes (.release 5) .cycle ∧
      m.Commutes .tick (.press 5) ∧ m.Commutes (.press 0) (.release 5) := by
  intro m
  obtain ⟨hi, hv⟩ := instruction?_askingForZero fun _ => 0
  have h : m.Interleaves := interleaves_of_run (fun _ => 0) askingForZero
  have hb : m.isBlocked = false := (instruction?_eq_some_iff.mp hi).1
  have hasks : ¬ m.AsksFor 5 (.skipDown 1) := by
    intro ha
    have hzero : (0 : UInt8).toNat = 5 := (congrArg UInt8.toNat hv).symm.trans ha
    exact absurd hzero (by decide)
  have honly : ∀ i, m.instruction? = some i → i = .skipDown 1 := by
    intro i hj
    exact (Option.some.inj (hi.symm.trans hj)).symm
  refine ⟨hb, hi, hasks, h.tick_cycle fun i hj => ?_, h.press_cycle 5 fun i hj => ?_,
    h.release_cycle hb 5 fun i hj => ?_, h.tick_key hb _ 5 rfl,
    h.key_key hb _ _ 0 5 rfl rfl (by decide)⟩
  · rw [honly i hj]
    decide
  · rw [honly i hj]
    exact hasks
  · rw [honly i hj]
    exact ⟨by decide, hasks⟩

end Machine

end ChipEight
