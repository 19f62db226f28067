import ChipEight.Proofs.Frame
import ChipEight.Proofs.Likeness
import ChipEight.Proofs.Writing

namespace ChipEight

def loadFault? (program : List Int) (address : Int) : Option Fault :=
  if address < 0x200 then some (.protectedWrite address (address + program.length))
  else if 4096 < address + program.length then
    some (.writeOutside address (address + program.length))
  else if ∀ b ∈ program, 0 ≤ b ∧ b ≤ 255 then none
  else some .byteRange

def loadedByte (program : List Int) (address : Int) (a : Nat) : UInt8 :=
  if a < 80 then Font.image.getD a 0
  else if loadFault? program address = none ∧ address ≤ a ∧ a < address + program.length then
    UInt8.ofNat (program.getD (a - address.toNat) 0).toNat
  else 0

def fontMemory : Memory := (Memory.blank Machine.memorySize).overlay 0 Font.image

theorem bounds_of_loadFault? {program : List Int} {address : Int}
    (h : loadFault? program address = none) :
    0x200 ≤ address ∧ address + program.length ≤ 4096 := by
  simp only [loadFault?] at h
  split at h
  · cases h
  · split at h
    · cases h
    · omega

theorem fault?_writeProgram (program : List Int) (address : Int) :
    (Memory.Action.writeProgram program address).fault? 4096 = loadFault? program address := by
  rw [Memory.Action.fault?, Memory.writeFault?, loadFault?]
  by_cases hlo : address < 0x200
  · rw [if_pos hlo, if_pos hlo]
  · have hr : address < 0 ∨ ((4096 : Nat) : Int) < address + program.length ↔
        4096 < address + program.length := by omega
    rw [if_neg hlo, if_neg hlo]
    simp only [hr]

theorem Memory.writeProgram_eq {m : Memory} (hm : m.size = 4096) (program : List Int)
    (address : Int) : m.writeProgram program address =
      match loadFault? program address with
      | some f => .error f
      | none => .ok (m.overlay address (program.map byteOf)) := by
  have ha := attempt_eq (m := m) (a := .writeProgram program address) rfl
  rw [hm, fault?_writeProgram] at ha
  exact ha

theorem size_fontMemory : fontMemory.size = 4096 :=
  (Memory.size_overlay (Int.le_refl 0) (by rw [Font.length_image, Memory.size_blank]; decide)).trans
    (Memory.size_blank _)

theorem byteAt_fontMemory (a : Nat) :
    fontMemory.byteAt a = if a < 80 then Font.image.getD a 0 else 0 := by
  rw [fontMemory, Memory.byteAt_overlay (Int.le_refl 0)
    (by rw [Font.length_image, Memory.size_blank]; decide), Font.length_image, Memory.byteAt_blank]
  by_cases ha : a < 80
  · rw [if_pos (by omega), if_pos ha, Int.toNat_zero, Nat.sub_zero]
  · rw [if_neg (by omega), if_neg ha]

theorem byteAt_overlay_fontMemory {program : List Int} {address : Int}
    (h : loadFault? program address = none) (a : Nat) :
    (fontMemory.overlay address (program.map Memory.byteOf)).byteAt a =
      loadedByte program address a := by
  obtain ⟨hlo, hhi⟩ := bounds_of_loadFault? h
  rw [Memory.byteAt_overlay (by omega) (by rw [List.length_map, size_fontMemory]; exact hhi),
    List.length_map, byteAt_fontMemory, loadedByte]
  by_cases hin : address ≤ a ∧ (a : Int) < address + program.length
  · rw [if_pos hin, if_neg (show ¬ a < 80 by omega), if_pos ⟨h, hin⟩]
    have hk : a - address.toNat < program.length := by omega
    simp only [List.getD_eq_getElem?_getD, List.getElem?_map, List.getElem?_eq_getElem hk,
      Option.map_some, Option.getD_some, Memory.byteOf]
  · rw [if_neg hin]
    split
    · rfl
    · rw [if_neg (fun hc => hin hc.2)]

theorem loadedByte_of_lt {program : List Int} {address : Int}
    (h : loadFault? program address = none) {k : Nat} (hk : k < program.length) :
    loadedByte program address (address.toNat + k) = Memory.byteOf program[k] := by
  obtain ⟨hlo, -⟩ := bounds_of_loadFault? h
  rw [loadedByte, if_neg (by omega), if_pos ⟨h, by omega⟩, Nat.add_sub_cancel_left]
  simp only [List.getD_eq_getElem?_getD, List.getElem?_eq_getElem hk, Option.getD_some,
    Memory.byteOf]

namespace Machine

variable {m n : Machine} {program : List Int} {address : Int}

/-- A machine that has just been switched on, apart from memory and program counter, keys and random
bytes. -/
def booted (m : Machine) (memory : Memory) (pc : Int) : Machine :=
  { fresh m.draws.stream with
    memory, pc, keypad := m.keypad, draws := m.draws, digitLimit := m.digitLimit }

theorem load_of_prepared {memory : Memory} {pc : Int} (h : m.prepared = m.booted memory pc)
    (program : List Int) (address : Int) : m.load program address =
      match memory.writeProgram program address with
      | .ok memory => ⟨m.booted memory address, none, [.loaded program.length address]⟩
      | .error f => .failed (m.booted memory pc) f := by
  rw [load, h]
  rfl

theorem prepared_eq (h : m.WellFormed) : m.prepared = m.booted fontMemory 0x200 := by
  have hmemory : m.memory.clear = .blank memorySize := by
    rw [Memory.clear, h.memory_size, memorySize]
  have hstack : m.stack.clear = .empty stackSize := by
    rw [CallStack.clear, h.stack_capacity]
    rfl
  have hscreen : m.screen.clear.markSeen = .blank screenWidth screenHeight := by
    rw [Framebuffer.markSeen, Framebuffer.clear, h.screen_width, h.screen_height]
    rfl
  rw [prepared, reset, hmemory, hstack, hscreen]
  rfl

theorem load_eq (h : m.WellFormed) (program : List Int) (address : Int) :
    m.load program address =
      match loadFault? program address with
      | some f => .failed (m.booted fontMemory 0x200) f
      | none => ⟨m.booted (fontMemory.overlay address (program.map Memory.byteOf)) address, none,
          [.loaded program.length address]⟩ := by
  rw [load_of_prepared (prepared_eq h), Memory.writeProgram_eq size_fontMemory]
  cases loadFault? program address <;> rfl

theorem fault_load (h : m.WellFormed) (program : List Int) (address : Int) :
    (m.load program address).fault = loadFault? program address := by
  rw [load_eq h]
  cases loadFault? program address <;> rfl

theorem alike_booted (hl : m.digitLimit = n.digitLimit) (hk : m.keypad = n.keypad)
    (hd : m.draws.remaining = n.draws.remaining) (memory : Memory) (pc : Int) :
    (m.booted memory pc).Alike (n.booted memory pc) := by
  refine ⟨n.draws, ?_, hd⟩
  rw [booted, booted, hl, hk]
  rfl

theorem alike_load (hm : m.WellFormed) (hn : n.WellFormed) (hl : m.digitLimit = n.digitLimit)
    (hk : m.keypad = n.keypad) (hd : m.draws.remaining = n.draws.remaining) (program : List Int)
    (address : Int) : (m.load program address).Alike (n.load program address) := by
  rw [load_eq hm, load_eq hn]
  cases loadFault? program address with
  | none => exact ⟨rfl, rfl, alike_booted hl hk hd _ _⟩
  | some f => exact ⟨rfl, rfl, alike_booted hl hk hd _ _⟩

/-- What loading a program comes to, for two machines with the same keys down and the same random
bytes to come. -/
structure LoadForgets (m n : Machine) (program : List Int) (address : Int) : Prop where
  alike : (m.load program address).Alike (n.load program address)
  alike_later : ∀ (commands : List Command) (c : Command),
    (((m.load program address).machine.run commands).perform c).Alike
      (((n.load program address).machine.run commands).perform c)
  alike_new : (m.load program address).Alike
    ({ fresh m.draws.remaining with keypad := m.keypad }.load program address)
  fault_eq : (m.load program address).fault = loadFault? program address
  machine_eq : ∃ memory : Memory, memory.size = 4096 ∧
    (∀ a, memory.byteAt a = loadedByte program address a) ∧
    (m.load program address).machine =
      { fresh m.draws.stream with
        memory
        pc := if loadFault? program address = none then address else 0x200
        keypad := m.keypad
        draws := m.draws }

theorem exists_machine_load (h : m.WellFormed) (program : List Int) (address : Int) :
    ∃ memory : Memory, memory.size = 4096 ∧
      (∀ a, memory.byteAt a = loadedByte program address a) ∧
      (m.load program address).machine =
        m.booted memory (if loadFault? program address = none then address else 0x200) := by
  rw [load_eq h]
  cases hf : loadFault? program address with
  | none =>
    obtain ⟨hlo, hhi⟩ := bounds_of_loadFault? hf
    refine ⟨_, ?_, byteAt_overlay_fontMemory hf, rfl⟩
    rw [Memory.size_overlay (by omega) (by rw [List.length_map, size_fontMemory]; exact hhi),
      size_fontMemory]
  | some f =>
    refine ⟨_, size_fontMemory, fun a => ?_, rfl⟩
    have hn : ¬ (some f = none ∧ address ≤ a ∧ (a : Int) < address + program.length) :=
      fun hc => nomatch hc.1
    rw [byteAt_fontMemory, loadedByte, hf, if_neg hn]

theorem loadForgets (hm : m.WellFormed) (hn : n.WellFormed) (hl : m.digitLimit = .usual)
    (hl' : n.digitLimit = .usual) (hk : m.keypad = n.keypad)
    (hd : m.draws.remaining = n.draws.remaining) (program : List Int) (address : Int) :
    m.LoadForgets n program address := by
  have ha := alike_load hm hn (hl.trans hl'.symm) hk hd program address
  have hnew : { fresh m.draws.remaining with keypad := m.keypad }.WellFormed :=
    { WellFormed.fresh m.draws.remaining with }
  have hdnew : m.draws.remaining = Draws.remaining ⟨m.draws.remaining, 0⟩ := by
    funext k
    simp only [Draws.remaining, Nat.zero_add]
  obtain ⟨memory, hsize, hbyte, hload⟩ := exists_machine_load hm program address
  rw [booted, hl] at hload
  exact ⟨ha, fun commands c => (ha.machine.run commands).perform c,
    alike_load hm hnew hl rfl hdnew program address, fault_load hm program address,
    memory, hsize, hbyte, hload⟩

theorem instruction?_of_loaded (h : m.WellFormed) (hf : loadFault? program address = none)
    (hb : n.isBlocked = false) (hmemory : n.memory = (m.load program address).machine.memory)
    {k : Nat} (hpc : n.pc = address + k) {upper lower : Int} (hupper : program[k]? = some upper)
    (hlower : program[k + 1]? = some lower) {i : Instruction}
    (hd : Instruction.decode
      (Instruction.wordOf (Memory.byteOf upper) (Memory.byteOf lower)) = .ok i) :
    n.instruction? = some i := by
  obtain ⟨memory, hsize, hbyte, hm⟩ := exists_machine_load h program address
  obtain ⟨hlo, hhi⟩ := bounds_of_loadFault? hf
  obtain ⟨hk, rfl⟩ := List.getElem?_eq_some_iff.mp hupper
  obtain ⟨hk', rfl⟩ := List.getElem?_eq_some_iff.mp hlower
  have hn : n.memory = memory := by
    rw [hmemory, hm]
    rfl
  have hplace : n.pc.toNat = address.toNat + k := by omega
  have hword : n.memory.wordAt n.pc.toNat =
      Instruction.wordOf (Memory.byteOf program[k]) (Memory.byteOf program[k + 1]) := by
    rw [hplace, hn, Memory.wordAt, Nat.add_assoc, hbyte, hbyte, loadedByte_of_lt hf hk,
      loadedByte_of_lt hf hk']
  have hbehind : n.pc + 2 ≤ n.memory.size := by
    rw [hn, hsize]
    omega
  exact instruction?_eq_some_iff.mpr ⟨hb, Memory.fetch_eq_ok_iff.mpr
    ⟨by omega, hbehind, hword.symm ▸ hd⟩⟩

theorem instruction?_load (h : m.WellFormed) {upper lower : Int} {rest : List Int} {i : Instruction}
    (hf : loadFault? (upper :: lower :: rest) address = none)
    (hd : Instruction.decode
      (Instruction.wordOf (Memory.byteOf upper) (Memory.byteOf lower)) = .ok i) :
    (m.load (upper :: lower :: rest) address).machine.instruction? = some i := by
  obtain ⟨memory, -, -, hm⟩ := exists_machine_load h (upper :: lower :: rest) address
  rw [if_pos hf] at hm
  exact instruction?_of_loaded h hf (by rw [hm]; rfl) rfl (k := 0) (by rw [hm]; simp [booted])
    rfl rfl hd

/-- Loading a program erases the history of a machine. -/
theorem load_forgets_history (streamM streamN : Nat → UInt8) (commandsM commandsN : List Command)
    (hk : ((fresh streamM).run commandsM).keypad = ((fresh streamN).run commandsN).keypad)
    (hd : ((fresh streamM).run commandsM).draws.remaining =
      ((fresh streamN).run commandsN).draws.remaining) (program : List Int) (address : Int) :
    LoadForgets ((fresh streamM).run commandsM) ((fresh streamN).run commandsN) program address :=
  have hl (stream : Nat → UInt8) (commands : List Command) :
      ((fresh stream).run commands).digitLimit = .usual :=
    digitLimit_run (.fresh stream) commands
  loadForgets (.ofRun streamM commandsM) (.ofRun streamN commandsN) (hl _ _) (hl _ _) hk hd program
    address

def drawing : List Command := [.press 2, .load [0xC0, 0xFF] 0x200, .cycle]

theorem run_drawing (stream : Nat → UInt8) :
    ((fresh stream).run drawing).keypad = ((fresh stream).run [.press 2]).keypad ∧
      ((fresh stream).run drawing).draws = ⟨stream, 1⟩ := by
  have h : ((fresh stream).press 2).machine.WellFormed := (WellFormed.fresh stream).press 2
  have hf : loadFault? [0xC0, 0xFF] 0x200 = none := by decide
  have hd : Instruction.decode (Instruction.wordOf (Memory.byteOf 0xC0) (Memory.byteOf 0xFF)) =
      .ok (.random 0 0xFF) := rfl
  have hi := instruction?_load h hf hd
  obtain ⟨memory, -, -, hm⟩ := exists_machine_load h [0xC0, 0xFF] 0x200
  rw [drawing, run_cons, run_cons, run_cons, run_nil, run_cons, run_nil, perform, perform, perform,
    cycle_of_success hi rfl, hm]
  exact ⟨rfl, rfl⟩

theorem load_forgets_drawing :
    ((fresh UInt8.ofNat).run [.press 2]).keypad =
      ((fresh fun k => UInt8.ofNat (k - 1)).run drawing).keypad ∧
    ((fresh UInt8.ofNat).run [.press 2]).draws.remaining =
      ((fresh fun k => UInt8.ofNat (k - 1)).run drawing).draws.remaining ∧
    LoadForgets ((fresh UInt8.ofNat).run [.press 2])
      ((fresh fun k => UInt8.ofNat (k - 1)).run drawing) [0x12, 0x00] 0x200 := by
  obtain ⟨hkeypad, hdraws⟩ := run_drawing fun k => UInt8.ofNat (k - 1)
  have hk : ((fresh UInt8.ofNat).run [.press 2]).keypad =
      ((fresh fun k => UInt8.ofNat (k - 1)).run drawing).keypad := hkeypad.symm
  have hd : ((fresh UInt8.ofNat).run [.press 2]).draws.remaining =
      ((fresh fun k => UInt8.ofNat (k - 1)).run drawing).draws.remaining := by
    rw [hdraws]
    funext k
    simp only [Draws.remaining, Nat.add_sub_cancel_left]
    exact congrArg UInt8.ofNat (Nat.zero_add k)
  exact ⟨hk, hd, load_forgets_history _ _ _ _ hk hd [0x12, 0x00] 0x200⟩

end Machine

end ChipEight
