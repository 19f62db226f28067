import ChipEight.Proofs.Course

namespace ChipEight.Machine

structure Bounded (m : Machine) : Prop where
  memory_size : m.memory.size = 4096
  index_nonneg : 0 ≤ m.index
  stack_capacity : m.stack.capacity = 16
  stack_size : m.stack.size ≤ 16
  /-- Return addresses lie behind an instruction that can be fetched. -/
  stack_frames : ∀ a ∈ m.stack.frames, 0x202 ≤ a ∧ a ≤ 0x1000
  screen_width : m.screen.width = 64
  screen_height : m.screen.height = 32
  screen_sized : m.screen.Sized
  delay : 0 ≤ m.delay ∧ m.delay < 256
  sound : 0 ≤ m.sound ∧ m.sound < 256

/-- The invariant of the machine between commands. -/
structure WellFormed (m : Machine) : Prop extends m.Bounded where
  pc : 0 ≤ m.pc ∧ m.pc ≤ 0x10FE
  not_jumped : m.jumped = false

variable {m : Machine}

namespace Bounded

theorem setFlag (h : m.Bounded) (b : Bool) : (m.setFlag b).Bounded := { h with }

theorem skipIf (h : m.Bounded) (b : Bool) : (m.skipIf b).Bounded := by
  cases b with
  | false => exact h
  | true => exact { h with }

theorem jumpTo (h : m.Bounded) (a : Int) : (m.jumpTo a).Bounded := { h with }

theorem withScreen (h : m.Bounded) {s : Framebuffer} (hw : s.width = 64) (hh : s.height = 32)
    (hs : s.Sized) : { m with screen := s }.Bounded :=
  { h with screen_width := hw, screen_height := hh, screen_sized := hs }

theorem withMemory (h : m.Bounded) {memory : Memory} (hm : memory.size = m.memory.size) :
    { m with memory }.Bounded :=
  { h with memory_size := hm.trans h.memory_size }

theorem withFrames (h : m.Bounded) {frames : List Int} (hl : frames.length ≤ 16)
    (hf : ∀ a ∈ frames, 0x202 ≤ a ∧ a ≤ 0x1000) :
    { m with stack := { m.stack with frames } }.Bounded :=
  { h with stack_size := hl, stack_frames := hf }

theorem returnFromCall (h : m.Bounded) : m.returnFromCall.machine.Bounded := by
  cases hs : m.stack.frames with
  | nil => rw [returnFromCall_of_nil hs]; exact h
  | cons a rest =>
    have hl := h.stack_size
    have hf := h.stack_frames
    rw [CallStack.size, hs, List.length_cons] at hl
    rw [hs] at hf
    rw [returnFromCall_of_cons hs]
    have hr := h.withFrames (by omega) fun b hb => hf b (List.mem_cons_of_mem a hb)
    exact { hr with }

theorem callTo (h : m.Bounded) (hpc : 0x200 ≤ m.pc ∧ m.pc + 2 ≤ 4096) (a : Int) :
    (m.callTo a).machine.Bounded := by
  have hc := h.stack_capacity
  by_cases hs : m.stack.capacity ≤ m.stack.size
  · rw [callTo_of_full hs]; exact h
  · rw [callTo_of_lt (by omega)]
    have hl : ((m.pc + Instruction.size) :: m.stack.frames).length ≤ 16 := by
      rw [CallStack.size] at hs
      rw [List.length_cons]
      omega
    have hr := h.withFrames hl (by
      intro b hb
      rcases List.mem_cons.mp hb with rfl | hb
      · rw [Instruction.size]
        omega
      · exact h.stack_frames b hb)
    exact { hr with }

theorem drawSprite (h : m.Bounded) (x y : UInt8) (n : Fin 16) :
    (m.drawSprite x y n.val).machine.Bounded := by
  by_cases hn : (m.memory.size : Int) < m.index + n.val
  · rw [drawSprite_of_lt x y hn]; exact h
  · obtain ⟨screen, erased, hs, hd⟩ := drawSprite_of_le x y h.index_nonneg (Int.not_lt.mp hn)
    rw [hd]
    have hp : (m.screen.stamp x.toNat y.toNat _).1.width = 64 ∧
        (m.screen.stamp x.toNat y.toNat _).1.height = 32 ∧
        (m.screen.stamp x.toNat y.toNat _).1.Sized :=
      Framebuffer.stamp_induction m.screen _ _
        (P := fun t => t.width = 64 ∧ t.height = 32 ∧ t.Sized)
        (fun t x y p ht => ⟨ht.1, ht.2.1, ht.2.2.xorAt x y p⟩)
        ⟨h.screen_width, h.screen_height, h.screen_sized⟩
        ⟨Stretch.items m.memory.bytes m.index (m.index + n)⟩
    rw [hs] at hp
    exact (h.withScreen hp.1 hp.2.1 hp.2.2).setFlag erased

theorem skipIfKey (h : m.Bounded) (key : UInt8) (down : Bool) :
    (m.skipIfKey key down).machine.Bounded := by
  by_cases hk : key.toNat < 16
  · rw [skipIfKey_of_lt hk]; exact h.skipIf _
  · rw [skipIfKey_of_le (by omega)]; exact h

theorem storeDigits (h : m.Bounded) (b : UInt8) : (m.storeDigits b).machine.Bounded := by
  by_cases hm : (m.memory.size : Int) ≤ m.index + 2
  · rw [storeDigits_of_le b hm]; exact h
  · have hlt := Int.not_le.mp hm
    rw [storeDigits_of_lt b hlt]
    exact h.withMemory (Memory.size_overlay h.index_nonneg (by
      simp only [decimalDigits, List.length_cons, List.length_nil]
      omega))

theorem effect (h : m.Bounded) (hpc : 0x200 ≤ m.pc ∧ m.pc + 2 ≤ 4096) (i : Instruction) :
    (m.effect i).machine.Bounded := by
  cases i with
  | ret => exact h.returnFromCall
  | call a => exact h.callTo hpc a.val
  | jump a | jumpOffset a => exact h.jumpTo _
  | skipEqByte x b | skipNeByte x b => exact h.skipIf _
  | skipEq x y | skipNe x y => exact h.skipIf _
  | cls => exact h.withScreen h.screen_width h.screen_height (Framebuffer.sized_clear _)
  | setIndex a => exact { h with index_nonneg := Int.natCast_nonneg _ }
  | addIndex x =>
    exact { h with index_nonneg := Int.add_nonneg h.index_nonneg (Int.natCast_nonneg _) }
  | selectGlyph x => exact { h with index_nonneg := Int.natCast_nonneg _ }
  | setDelay x =>
    have hx := m.registers[x].toNat_lt
    exact { h with delay := ⟨Int.natCast_nonneg _, Int.ofNat_lt.mpr hx⟩ }
  | setSound x =>
    have hx := m.registers[x].toNat_lt
    exact { h with sound := ⟨Int.natCast_nonneg _, Int.ofNat_lt.mpr hx⟩ }
  | draw x y n => exact h.drawSprite _ _ _
  | skipDown x | skipUp x => exact h.skipIfKey _ _
  | readDelay x =>
    rw [Machine.effect, readDelay_eq h.delay]
    exact { h with }
  | storeDigits x => exact h.storeDigits _
  | storeRegisters x =>
    obtain ⟨memory, hs, hsize, -⟩ := storeRegisters_upTo h.index_nonneg x
    rw [Machine.effect, hs]
    exact h.withMemory hsize
  | loadRegisters x =>
    obtain ⟨registers, hs, -⟩ := loadRegisters_upTo h.index_nonneg x
    rw [Machine.effect, hs]
    exact { h with }
  | _ => exact { h with }

theorem successor (h : m.Bounded) (hpc : 0x200 ≤ m.pc ∧ m.pc + 2 ≤ 4096) (i : Instruction) :
    0 ≤ m.successor i ∧ m.successor i ≤ 0x10FE := by
  have hb : ∀ b, 0 ≤ m.behind b ∧ m.behind b ≤ 0x10FE := by
    intro b
    cases b with
    | false => simp only [behind, Bool.false_eq_true, if_false]; omega
    | true => simp only [behind, if_true]; omega
  cases i with
  | ret =>
    cases hs : m.stack.frames with
    | nil => simp [Machine.successor, hs]
    | cons a rest =>
      have ha := h.stack_frames a (hs ▸ List.mem_cons_self)
      simp only [Machine.successor, hs, List.headD_cons]
      omega
  | jump a | call a =>
    have ha := a.isLt
    simp only [Machine.successor]
    omega
  | jumpOffset a =>
    have ha := a.isLt
    have hr := m.registers[(0 : Register)].toNat_lt
    simp only [Machine.successor]
    omega
  | _ => exact hb _

end Bounded

namespace WellFormed

theorem zero_bounds : 0 ≤ (0 : Int) ∧ (0 : Int) < 256 := by decide

theorem programStart_bounds : 0 ≤ Memory.programStart ∧ Memory.programStart ≤ 0x10FE := by decide

theorem fresh (stream : Nat → UInt8) : (fresh stream).WellFormed where
  memory_size := Memory.size_blank _
  index_nonneg := Int.le_refl _
  stack_capacity := rfl
  stack_size := Nat.zero_le _
  stack_frames := fun _ ha => nomatch ha
  screen_width := rfl
  screen_height := rfl
  screen_sized := Framebuffer.sized_blank _ _
  delay := zero_bounds
  sound := zero_bounds
  pc := programStart_bounds
  not_jumped := rfl

theorem reset (h : m.WellFormed) : m.reset.WellFormed where
  memory_size := (Memory.size_clear _).trans h.memory_size
  index_nonneg := Int.le_refl _
  stack_capacity := h.stack_capacity
  stack_size := Nat.zero_le _
  stack_frames := fun _ ha => nomatch ha
  screen_width := h.screen_width
  screen_height := h.screen_height
  screen_sized := Framebuffer.sized_clear _
  delay := zero_bounds
  sound := zero_bounds
  pc := programStart_bounds
  not_jumped := rfl

theorem prepared (h : m.WellFormed) : m.prepared.WellFormed := by
  have hr := h.reset
  have hm : (m.reset.memory.overlay 0 Font.image).size = m.reset.memory.size := by
    apply Memory.size_overlay (Int.le_refl 0)
    rw [Font.length_image, hr.memory_size]
    decide
  exact { hr with memory_size := hm.trans hr.memory_size }

theorem load (h : m.WellFormed) (program : List Int) (address : Int) :
    (m.load program address).machine.WellFormed := by
  have hp := h.prepared
  cases hw : m.prepared.memory.writeProgram program address with
  | error f => simp only [Machine.load, hw, Outcome.failed, hp]
  | ok memory =>
    obtain ⟨hlo, hhi, hsize⟩ := Memory.writeProgram_eq_ok hw
    rw [hp.memory_size] at hhi hsize
    have hpc : 0 ≤ address ∧ address ≤ 0x10FE := by omega
    simp only [Machine.load, hw]
    exact { hp with memory_size := hsize, pc := hpc }

/-- A program of bytes that fits above the protected area is found where it was loaded, and the
machine is going to start there. -/
theorem load_of_fits (h : m.WellFormed) {program : List Int} {address : Int}
    (hlo : 0x200 ≤ address) (hhi : address + program.length ≤ 4096)
    (hb : program.all Memory.isByte = true) : ∃ n : Machine,
    m.load program address = ⟨n, none, [.loaded program.length address]⟩ ∧ n.WellFormed ∧
      n.pc = address ∧ n.index = 0 ∧ n.isBlocked = false ∧
      ∀ k (hk : k < program.length),
        n.memory.byteAt (address.toNat + k) = Memory.byteOf program[k] := by
  have hsize := h.prepared.memory_size
  have hm : address + (program.map Memory.byteOf).length ≤ m.prepared.memory.size := by
    rw [hsize, List.length_map]
    exact hhi
  have hw : m.prepared.memory.writeProgram program address =
      .ok (m.prepared.memory.overlay address (program.map Memory.byteOf)) := by
    apply Memory.writeProgram_of_fits hlo _ hb
    rw [hsize]
    exact hhi
  have hl := h.load program address
  simp only [Machine.load, hw] at hl ⊢
  refine ⟨_, rfl, hl, rfl, rfl, rfl, fun k hk => ?_⟩
  have hk' : address ≤ ((address.toNat + k : Nat) : Int) ∧
      ((address.toNat + k : Nat) : Int) < address + (program.map Memory.byteOf).length := by
    rw [List.length_map]
    omega
  rw [Memory.byteAt_overlay (by omega) hm, if_pos hk', Nat.add_sub_cancel_left]
  simp [hk]

theorem load_of_long (h : m.WellFormed) {program : List Int} {address : Int}
    (hlo : 0x200 ≤ address) (hhi : 4096 < address + program.length) :
    m.load program address =
      .failed m.prepared (.writeOutside address (address + program.length)) := by
  have hw : m.prepared.memory.writeProgram program address =
      .error (.writeOutside address (address + program.length)) := by
    apply Memory.writeProgram_of_long hlo
    rw [h.prepared.memory_size]
    exact hhi
  simp only [Machine.load, hw]

theorem tick (h : m.WellFormed) : m.tick.WellFormed := by
  have hc : ∀ t : Int, 0 ≤ t ∧ t < 256 → 0 ≤ tick.countDown t ∧ tick.countDown t < 256 := by
    intro t ht
    simp only [tick.countDown]
    split <;> omega
  rw [Machine.tick]
  split
  · exact h
  · exact { h with delay := hc _ h.delay, sound := hc _ h.sound }

theorem markSeen (h : m.WellFormed) : m.markSeen.WellFormed :=
  { h with screen_sized := h.screen_sized }

theorem interrupt (h : m.WellFormed) (key : Int) : (m.interrupt key).machine.WellFormed := by
  rw [Machine.interrupt]
  split
  · exact h
  · split
    · exact { h with }
    · exact h

theorem press (h : m.WellFormed) (key : Int) : (m.press key).machine.WellFormed := by
  rw [Machine.press]
  split
  · exact { h with }
  · exact h

theorem release (h : m.WellFormed) (key : Int) : (m.release key).machine.WellFormed := by
  rw [Machine.release]
  split
  · next k _ =>
    have hk : { m with keypad := m.keypad.release k }.WellFormed := { h with }
    exact hk.interrupt k.val
  · exact h

theorem effect_of_fault (h : m.WellFormed) (hpc : 0x200 ≤ m.pc ∧ m.pc + 2 ≤ 4096)
    {i : Instruction} {f : Fault} (hf : (m.effect i).fault = some f) :
    (m.effect i).machine.WellFormed := by
  have hb := h.effect hpc i
  have hp := (residue_effect h.index_nonneg h.delay hf).pc_eq
  exact { hb with pc := hp.1 ▸ h.pc, not_jumped := hp.2.trans h.not_jumped }

theorem cycle (h : m.WellFormed) : m.cycle.machine.WellFormed := by
  cases m.course with
  | waits hb hc => rw [hc]; exact h
  | unfetched f hb hf hc => rw [hc]; exact h
  | fails i f hi hf hc =>
    have hpc := pc_of_instruction? hi
    rw [h.memory_size] at hpc
    rw [hc]
    exact h.effect_of_fault hpc hf
  | succeeds i hi hf hc =>
    have hpc := pc_of_instruction? hi
    rw [h.memory_size] at hpc
    have hb := h.effect hpc i
    have hs := h.successor hpc i
    rw [← pc_advance_effect h.index_nonneg h.delay h.not_jumped hf] at hs
    rw [hc]
    exact { hb with pc := hs, not_jumped := rfl }

theorem perform (h : m.WellFormed) (c : Command) : (m.perform c).machine.WellFormed := by
  cases c with
  | reset => exact h.reset
  | load program address => exact h.load program address
  | cycle => exact h.cycle
  | tick => exact h.tick
  | press key => exact h.press key
  | release key => exact h.release key
  | markSeen => exact h.markSeen

theorem performEach (h : m.WellFormed) (commands : List Command) :
    (m.performEach commands).machine.WellFormed := by
  induction commands generalizing m with
  | nil => exact h
  | cons c commands ih =>
    rw [Machine.performEach]
    cases hf : (m.perform c).fault with
    | some f =>
      rw [Outcome.andThen_of_some hf]
      exact h.perform c
    | none =>
      rw [Outcome.andThen_of_none hf]
      exact ih (h.perform c)

theorem run (h : m.WellFormed) (commands : List Command) : (m.run commands).WellFormed := by
  induction commands generalizing m with
  | nil => exact h
  | cons c commands ih => exact ih (h.perform c)

theorem ofRun (stream : Nat → UInt8) (commands : List Command) :
    ((Machine.fresh stream).run commands).WellFormed :=
  (fresh stream).run commands

end WellFormed

/-- The state of a machine in numbers, whatever its host did to it. -/
theorem bounds_of_run (stream : Nat → UInt8) (commands : List Command) :
    let m := (fresh stream).run commands
    (m.memory.bytes.size = 4096 ∧ ∀ b ∈ m.memory.bytes, b.toNat ≤ 255) ∧
    (m.registers.size = 16 ∧ ∀ b ∈ m.registers, b.toNat ≤ 255) ∧
    (0 ≤ m.delay ∧ m.delay ≤ 255) ∧ (0 ≤ m.sound ∧ m.sound ≤ 255) ∧
    (m.stack.frames.length ≤ 16 ∧ ∀ a ∈ m.stack.frames, 0x202 ≤ a ∧ a ≤ 0x1000) ∧
    0 ≤ m.index ∧ (0 ≤ m.pc ∧ m.pc ≤ 0x10FE) ∧ m.jumped = false ∧
    (m.waiting = none ∨ ∃ r : Fin 16, m.waiting = some r) ∧
    (m.screen.rows.size = 32 ∧ ∀ row ∈ m.screen.rows, row.size = 64) ∧ m.keypad.size = 16 := by
  intro m
  have h : m.WellFormed := .ofRun stream commands
  have hb : ∀ b : UInt8, b.toNat ≤ 255 := fun b => Nat.le_of_lt_succ b.toNat_lt
  have hs := h.screen_sized
  rw [Framebuffer.Sized, h.screen_width, h.screen_height] at hs
  refine ⟨⟨h.memory_size, fun b _ => hb b⟩, ⟨rfl, fun b _ => hb b⟩, ?_, ?_,
    ⟨h.stack_size, h.stack_frames⟩, h.index_nonneg, h.pc, h.not_jumped, ?_, hs, rfl⟩
  · exact ⟨h.delay.1, Int.le_of_lt_add_one h.delay.2⟩
  · exact ⟨h.sound.1, Int.le_of_lt_add_one h.sound.2⟩
  · cases m.waiting with
    | none => exact .inl rfl
    | some r => exact .inr ⟨r, rfl⟩

end ChipEight.Machine
