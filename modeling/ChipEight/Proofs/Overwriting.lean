import ChipEight.Proofs.Calls
import ChipEight.Proofs.Loading

namespace ChipEight

def Instruction.stores : Instruction → Bool
  | .storeDigits _ | .storeRegisters _ => true
  | _ => false

namespace Machine

/-- Whether the next cycle stores to an address. A block of registers is stored up to the end of the
memory even if the instruction fails. -/
def StoresTo (m : Machine) (a : Nat) : Prop :=
  (∃ x, m.instruction? = some (.storeDigits x) ∧ m.cycle.fault = none ∧
    m.index ≤ a ∧ a ≤ m.index + 2) ∨
  ∃ x, m.instruction? = some (.storeRegisters x) ∧ m.index ≤ a ∧ a ≤ m.index + x.val

structure Overwrites (m : Machine) (c : Command) : Prop where
  size : m.memory.size = 4096 ∧ (m.perform c).machine.memory.size = 4096
  byteAt : ∀ a, (m.perform c).machine.memory.byteAt a ≠ m.memory.byteAt a →
    c = .cycle ∧ m.StoresTo a
  memory_eq : (c = .cycle → ∀ i, m.instruction? = some i → i.stores →
      i.opcode = .storeDigits ∧ m.cycle.fault ≠ none) →
    (m.perform c).machine.memory = m.memory

/-- Whether I pointed above the protected area whenever an instruction that stores was executed. -/
def StoresAbove (m : Machine) (commands : List Command) : Prop :=
  ∀ before after, commands = before ++ .cycle :: after →
    ∀ i, (m.run before).instruction? = some i → i.stores → 0x200 ≤ (m.run before).index

structure HoldsFont (m : Machine) : Prop where
  byteAt : ∀ a < 0x200, m.memory.byteAt a = if a < 80 then Font.image.getD a 0 else 0
  glyph : ∀ x (d : Fin 16), m.instruction? = some (.selectGlyph x) → m.registers[x].toNat = d.val →
    m.cycle.fault = none ∧
      (List.range 5).map (fun k =>
        m.cycle.machine.memory.byteAt (m.cycle.machine.index.toNat + k)) = Font.glyphs[d]

variable {m : Machine}

theorem memory_perform {c : Command} (hk : c.keepsProgram) (hc : c ≠ .cycle) :
    (m.perform c).machine.memory = m.memory := by
  rcases Command.eq_markSeen_or_isStimulus hk hc with rfl | hs
  · rfl
  · obtain ⟨_, _, _, _, _, hm⟩ := m.exists_perform_of_isStimulus hs
    rw [hm]

theorem byteAt_storeDigits (h : m.WellFormed) {x : Register}
    (hi : m.instruction? = some (.storeDigits x)) {a : Nat} (hs : ¬ m.StoresTo a) :
    m.cycle.machine.memory.byteAt a = m.memory.byteAt a := by
  by_cases hm : (m.memory.size : Int) ≤ m.index + 2
  · have he := storeDigits_of_le m.registers[x] hm
    rw [cycle_of_fault hi (congrArg Outcome.fault he), effect, he]
    rfl
  · have he := storeDigits_of_lt m.registers[x] (Int.not_le.mp hm)
    have hf : (m.effect (.storeDigits x)).fault = none := congrArg Outcome.fault he
    have hlen : (decimalDigits m.registers[x]).length = 3 := rfl
    have hout : ¬ (m.index ≤ a ∧ (a : Int) ≤ m.index + 2) := fun ha =>
      hs (.inl ⟨x, hi, (fault_cycle_of_instruction? hi).trans hf, ha⟩)
    rw [cycle_of_success hi hf, effect, he]
    refine (Memory.byteAt_overlay h.index_nonneg ?_ a).trans (if_neg ?_)
    · rw [hlen]
      omega
    · rw [hlen]
      omega

theorem byteAt_storeRegisters (h : m.WellFormed) {x : Register}
    (hi : m.instruction? = some (.storeRegisters x)) {a : Nat} (hs : ¬ m.StoresTo a) :
    m.cycle.machine.memory.byteAt a = m.memory.byteAt a := by
  obtain ⟨memory, he, -, -, hout⟩ := storeRegisters_upTo h.index_nonneg x
  have hmemory : m.cycle.machine.memory = memory := by
    cases hf : (m.effect (.storeRegisters x)).fault with
    | some f => rw [cycle_of_fault hi hf, effect, he]
    | none =>
      rw [cycle_of_success hi hf, effect, he]
      rfl
  have ha : ¬ (m.index ≤ a ∧ (a : Int) ≤ m.index + x.val) := fun ha => hs (.inr ⟨x, hi, ha⟩)
  rw [hmemory]
  apply hout
  omega

theorem byteAt_cycle (h : m.WellFormed) {a : Nat} (hs : ¬ m.StoresTo a) :
    m.cycle.machine.memory.byteAt a = m.memory.byteAt a := by
  cases hi : m.instruction? with
  | none => rw [machine_cycle_of_none hi]
  | some i =>
    cases i with
    | storeDigits x => exact byteAt_storeDigits h hi hs
    | storeRegisters x => exact byteAt_storeRegisters h hi hs
    | _ => rw [(frame_cycle h hi).memory (by rintro ⟨⟩) (by rintro ⟨⟩)]

theorem memory_cycle (h : m.WellFormed) (hi : ∀ i, m.instruction? = some i → i.stores →
    i.opcode = .storeDigits ∧ m.cycle.fault ≠ none) : m.cycle.machine.memory = m.memory := by
  cases hj : m.instruction? with
  | none => rw [machine_cycle_of_none hj]
  | some i =>
    cases i with
    | storeDigits x =>
      obtain ⟨f, hf⟩ := Option.ne_none_iff_exists'.mp (hi _ hj rfl).2
      have hr := residue_effect h.index_nonneg h.delay
        ((fault_cycle_of_instruction? hj).symm.trans hf)
      rw [cycle_of_fault hj ((fault_cycle_of_instruction? hj).symm.trans hf)]
      exact congrArg Machine.memory hr
    | storeRegisters x => cases (hi _ hj rfl).1
    | _ => exact (frame_cycle h hj).memory (by rintro ⟨⟩) (by rintro ⟨⟩)

theorem overwrites (h : m.WellFormed) {c : Command} (hk : c.keepsProgram) : m.Overwrites c := by
  refine ⟨⟨h.memory_size, (h.perform c).memory_size⟩, fun a ha => ?_, fun hi => ?_⟩
  · by_cases hc : c = .cycle
    · subst hc
      exact ⟨rfl, Classical.byContradiction fun hs => ha (byteAt_cycle h hs)⟩
    · exact absurd (congrArg (Memory.byteAt · a) (memory_perform hk hc)) ha
  · by_cases hc : c = .cycle
    · subst hc
      exact memory_cycle h (hi rfl)
    · exact memory_perform hk hc

theorem StoresAbove.head {c : Command} {cs : List Command} (hs : m.StoresAbove (c :: cs))
    (hc : c = .cycle) : ∀ i, m.instruction? = some i → i.stores → 0x200 ≤ m.index :=
  hs [] cs (congrArg (· :: cs) hc)

theorem StoresAbove.tail {c : Command} {cs : List Command} (hs : m.StoresAbove (c :: cs)) :
    (m.perform c).machine.StoresAbove cs :=
  fun before after he => hs (c :: before) after (congrArg (c :: ·) he)

theorem StoresTo.stores {a : Nat} (hs : m.StoresTo a) :
    ∃ i, m.instruction? = some i ∧ i.stores ∧ m.index ≤ a := by
  rcases hs with ⟨x, hi, -, ha, -⟩ | ⟨x, hi, ha, -⟩
  · exact ⟨_, hi, rfl, ha⟩
  · exact ⟨_, hi, rfl, ha⟩

theorem byteAt_run (h : m.WellFormed) {cs : List Command} (hk : ∀ c ∈ cs, c.keepsProgram)
    (hs : m.StoresAbove cs) {a : Nat} (ha : a < 0x200) :
    (m.run cs).memory.byteAt a = m.memory.byteAt a := by
  induction cs generalizing m with
  | nil => rfl
  | cons c cs ih =>
    have hstep : (m.perform c).machine.memory.byteAt a = m.memory.byteAt a := by
      refine Classical.byContradiction fun hne => ?_
      obtain ⟨hc, hto⟩ := (overwrites h (hk c List.mem_cons_self)).byteAt a hne
      obtain ⟨i, hi, hstores, hle⟩ := hto.stores
      have habove := hs.head hc i hi hstores
      omega
    exact (ih (h.perform c) (fun d hd => hk d (List.mem_cons_of_mem c hd)) hs.tail).trans hstep

theorem byteAt_load (h : m.WellFormed) (program : List Int) (address : Int) {a : Nat}
    (ha : a < 0x200) : (m.load program address).machine.memory.byteAt a =
      if a < 80 then Font.image.getD a 0 else 0 := by
  obtain ⟨memory, -, hbyte, hm⟩ := exists_machine_load h program address
  have hprogram : ¬ (loadFault? program address = none ∧ address ≤ a ∧
      (a : Int) < address + program.length) := by
    rintro ⟨hf, hle, -⟩
    have hlo := (bounds_of_loadFault? hf).1
    omega
  rw [hm]
  exact (hbyte a).trans (by rw [loadedByte, if_neg hprogram])

theorem holdsFont
    (hm : ∀ a < 0x200, m.memory.byteAt a = if a < 80 then Font.image.getD a 0 else 0) :
    m.HoldsFont := by
  refine ⟨hm, fun x d hi hd => ?_⟩
  rw [cycle_of_success hi rfl]
  refine ⟨rfl, (List.map_congr_left fun k hk => ?_).trans (Font.map_range_image d)⟩
  have hindex : (m.effect (.selectGlyph x)).machine.advance.index.toNat = Font.glyphAddress d := by
    rw [← hd]
    rfl
  have hlt : Font.glyphAddress d + k < 80 := by
    have hd16 := d.isLt
    have hk5 := List.mem_range.mp hk
    simp only [Font.glyphAddress, Font.glyphSize]
    omega
  rw [hindex]
  exact (hm _ (by omega)).trans (if_pos hlt)

/-- However a program was loaded and whatever was done before: a command overwrites no byte but
those that an instruction stores, and the font stays as long as nothing is stored from below. -/
theorem overwrites_of_session (stream : Nat → UInt8) (before : List Command)
    (program : List Int) (address : Int) {commands : List Command}
    (hk : ∀ c ∈ commands, c.keepsProgram) :
    let m := (((fresh stream).run before).load program address).machine
    (∀ c : Command, c.keepsProgram → (m.run commands).Overwrites c) ∧
      (m.StoresAbove commands → (m.run commands).HoldsFont) := by
  intro m
  have h : m.WellFormed := (WellFormed.ofRun stream before).load program address
  refine ⟨fun c hc => overwrites (h.run commands) hc, fun hs => holdsFont fun a ha => ?_⟩
  exact (byteAt_run h hk hs ha).trans (byteAt_load (.ofRun stream before) program address ha)

def storing : List Int := [0xA3, 0x00, 0xF0, 0x55]

theorem run_storing (h : m.WellFormed) :
    (m.load storing 0x200).machine.instruction? = some (.setIndex 0x300) ∧
      let n := (m.load storing 0x200).machine.run [.cycle, .tick]
      n.instruction? = some (.storeRegisters 0) ∧ n.index = 0x300 := by
  have hf : loadFault? storing 0x200 = none := by decide
  have hfirst : Instruction.decode (Instruction.wordOf (Memory.byteOf 0xA3) (Memory.byteOf 0x00)) =
      .ok (.setIndex 0x300) := rfl
  have hi : (m.load storing 0x200).machine.instruction? = some (.setIndex 0x300) :=
    instruction?_load h hf hfirst
  obtain ⟨memory, -, -, hm⟩ := exists_machine_load h storing 0x200
  rw [if_pos hf] at hm
  have hn : (m.load storing 0x200).machine.run [.cycle, .tick] =
      { m.booted memory 0x202 with index := 0x300 } := by
    rw [run_cons, run_cons, run_nil, perform, cycle_of_success hi rfl, hm]
    rfl
  rw [hn]
  exact ⟨hi, instruction?_of_loaded h hf rfl (by rw [hm]; rfl) (k := 2) rfl rfl rfl rfl, rfl⟩

theorem storesAbove_of_setIndex {a : Fin 4096} (hi : m.instruction? = some (.setIndex a)) :
    m.StoresAbove [.cycle, .tick] := by
  intro before after he i hj hstores
  cases before with
  | nil =>
    rw [run_nil, hi] at hj
    cases hj
    cases hstores
  | cons b before =>
    have hmem : Command.cycle ∈ [Command.tick] := by
      rw [(List.cons.inj he).2]
      exact List.mem_append_right before List.mem_cons_self
    exact absurd hmem (by decide)

theorem overwrites_storing :
    let m := (((fresh fun _ => 0).run [.press 2]).load storing 0x200).machine
    let n := m.run [.cycle, .tick]
    (∀ c ∈ [Command.cycle, .tick], c.keepsProgram) ∧ m.StoresAbove [.cycle, .tick] ∧
      n.StoresTo 0x300 ∧ n.Overwrites .cycle ∧ n.HoldsFont := by
  intro m n
  obtain ⟨hfirst, hi, hindex⟩ := run_storing (.ofRun (fun _ => 0) [.press 2])
  have hk : ∀ c ∈ [Command.cycle, .tick], c.keepsProgram := by decide
  have habove : m.StoresAbove [.cycle, .tick] := storesAbove_of_setIndex hfirst
  obtain ⟨hover, hfont⟩ := overwrites_of_session (fun _ => 0) [.press 2] storing 0x200 hk
  refine ⟨hk, habove, .inr ⟨0, hi, ?_⟩, hover .cycle rfl, hfont habove⟩
  rw [hindex]
  decide

end Machine

end ChipEight
