import ChipEight.Proofs.Overwriting
import ChipEight.Proofs.Shape

namespace ChipEight

def numbers (program : List UInt8) : List Int := program.map fun b => (b.toNat : Int)

def programByte (program : List UInt8) (address b : Int) : Int :=
  if address ≤ b ∧ b < address + program.length then (program.getD (b - address).toNat 0).toNat
  else 0

def fetched (program : List UInt8) (address b : Int) : Except Fault Instruction :=
  if b < 0x200 then .error (.protectedFetch b)
  else if 4094 < b then .error (.fetchOutside b)
  else Instruction.decodeNumber
    (256 * programByte program address b + programByte program address (b + 1))

theorem Instruction.decode_wordOf (upper lower : UInt8) : decode (wordOf upper lower) =
    decodeNumber (256 * upper.toNat + lower.toNat) := by
  have hu := upper.toNat_lt
  have hl := lower.toNat_lt
  rw [decodeNumber, if_pos (by omega), wordOf_eq]
  rfl

section

variable {program : List UInt8} {address b : Int} {memory : Memory}

theorem getD_numbers (program : List UInt8) (k : Nat) :
    (numbers program).getD k 0 = (program.getD k 0).toNat := by
  rw [numbers, List.getD_eq_getElem?_getD, List.getElem?_map, List.getD_eq_getElem?_getD]
  cases program[k]? <;> rfl

theorem loadFault?_numbers (hlo : 0x200 ≤ address) (hhi : address + program.length ≤ 4096) :
    loadFault? (numbers program) address = none := by
  have hlen : (numbers program).length = program.length := List.length_map _
  rw [loadFault?, if_neg (Int.not_lt.mpr hlo), hlen, if_neg (Int.not_lt.mpr hhi), if_pos]
  intro n hn
  obtain ⟨c, -, rfl⟩ := List.mem_map.mp hn
  have hc := c.toNat_lt
  omega

theorem toNat_loadedByte (h : loadFault? (numbers program) address = none) {a : Nat}
    (ha : 80 ≤ a) :
    ((loadedByte (numbers program) address a).toNat : Int) = programByte program address a := by
  have hlen : (numbers program).length = program.length := List.length_map _
  have hlo := (bounds_of_loadFault? h).1
  rw [loadedByte, if_neg (Nat.not_lt.mpr ha), programByte, hlen]
  by_cases hin : address ≤ a ∧ (a : Int) < address + program.length
  · have hplace : (a - address).toNat = a - address.toNat := by omega
    rw [if_pos ⟨h, hin⟩, if_pos hin, hplace, getD_numbers, Int.toNat_natCast, UInt8.ofNat_toNat]
  · rw [if_neg fun hc => hin hc.2, if_neg hin]
    rfl

theorem fetch_eq_fetched (hsize : memory.size = 4096) (hbyte : ∀ a : Nat, 80 ≤ a →
    ((memory.byteAt a).toNat : Int) = programByte program address a) (b : Int) :
    memory.fetch b = fetched program address b := by
  by_cases hlo : b < 0x200
  · rw [fetched, if_pos hlo]
    exact if_pos hlo
  · have houtside : (memory.size : Int) < b + Instruction.size ↔ 4094 < b := by
      rw [hsize, Instruction.size]
      omega
    rw [Memory.fetch, if_neg (show ¬ b < Memory.programStart from hlo), fetched, if_neg hlo]
    simp only [houtside]
    obtain ⟨a, rfl⟩ := Int.eq_ofNat_of_zero_le (show 0 ≤ b by omega)
    rw [Int.toNat_natCast, Memory.wordAt, Instruction.decode_wordOf, hbyte a (by omega),
      hbyte (a + 1) (by omega)]
    rfl

theorem fetched_lone {last : UInt8} (hlast : program.getLast? = some last) (hlo : 0x200 ≤ address)
    (hhi : address + program.length - 1 ≤ 4094) :
    fetched program address (address + program.length - 1) =
      Instruction.decode (Instruction.wordOf last 0) := by
  obtain ⟨front, rfl⟩ := List.getLast?_eq_some_iff.mp hlast
  have hlen : (front ++ [last]).length = front.length + 1 := List.length_append
  have hplace : (address + (front ++ [last]).length - 1 - address).toNat = front.length := by omega
  rw [fetched, if_neg (by omega), if_neg (by omega), programByte, if_pos (by omega), programByte,
    if_neg (by omega), hplace, List.getD_eq_getElem?_getD, List.getElem?_concat_length,
    Instruction.decode_wordOf]
  rfl

theorem fetched_beside (hlo : 0x200 ≤ b) (hhi : b ≤ 4094)
    (hb : b + 1 < address ∨ address + program.length ≤ b) :
    fetched program address b = .ok (.sys 0) := by
  rw [fetched, if_neg (by omega), if_neg (by omega), programByte, if_neg (by omega), programByte,
    if_neg (by omega)]
  rfl

end

namespace Machine

/-- Whether a command keeps the bytes of the memory. Only storing the digits of a register may fail
before it has changed any. -/
def StoresNothing (m : Machine) (c : Command) : Prop :=
  c = .cycle → ∀ i, m.instruction? = some i → i.stores →
    i.opcode = .storeDigits ∧ m.cycle.fault ≠ none

structure Fetches (m : Machine) (program : List UInt8) (address : Int) : Prop where
  fetch_eq : ∀ b, m.memory.fetch b = fetched program address b
  lone : ∀ last, program.getLast? = some last → address + program.length - 1 ≤ 4094 →
    m.memory.fetch (address + program.length - 1) = Instruction.decode (Instruction.wordOf last 0)
  beside : ∀ b, 0x200 ≤ b → b ≤ 4094 → b + 1 < address ∨ address + program.length ≤ b →
    m.memory.fetch b = .ok (.sys 0)

variable {m : Machine} {program : List UInt8} {address : Int}

theorem memory_run (h : m.WellFormed) {commands : List Command}
    (hk : ∀ c ∈ commands, c.keepsProgram) (hs : m.Throughout StoresNothing commands) :
    (m.run commands).memory = m.memory := by
  induction commands generalizing m with
  | nil => rfl
  | cons c commands ih =>
    have hc := (overwrites h (hk c List.mem_cons_self)).memory_eq hs.head
    exact (ih (h.perform c) (fun d hd => hk d (List.mem_cons_of_mem c hd)) hs.tail).trans hc

theorem fetches_of_memory (hlo : 0x200 ≤ address)
    (hm : ∀ b, m.memory.fetch b = fetched program address b) : m.Fetches program address where
  fetch_eq := hm
  lone _ hlast hhi := (hm _).trans (fetched_lone hlast hlo hhi)
  beside b hblo hbhi hb := (hm b).trans (fetched_beside hblo hbhi hb)

/-- However a machine was used before a program was loaded into it: it fetches what was loaded, and
goes on to do so until something is stored. -/
theorem fetches_of_session (stream : Nat → UInt8) (before : List Command)
    {program : List UInt8} {address : Int} (hlo : 0x200 ≤ address)
    (hhi : address + program.length ≤ 4096) {commands : List Command}
    (hk : ∀ c ∈ commands, c.keepsProgram) :
    let o := ((fresh stream).run before).load (numbers program) address
    o.fault = none ∧ o.machine.Fetches program address ∧
      (o.machine.Throughout StoresNothing commands →
        (o.machine.run commands).Fetches program address) := by
  intro o
  have hbefore : ((fresh stream).run before).WellFormed := .ofRun stream before
  have hf := loadFault?_numbers hlo hhi
  obtain ⟨memory, hsize, hbyte, hm⟩ := exists_machine_load hbefore (numbers program) address
  have hmemory : o.machine.memory = memory := congrArg Machine.memory hm
  have hfetch : ∀ b, memory.fetch b = fetched program address b :=
    fetch_eq_fetched hsize fun a ha => (hbyte a).symm ▸ toNat_loadedByte hf ha
  refine ⟨(fault_load hbefore _ _).trans hf, fetches_of_memory hlo (hmemory.symm ▸ hfetch),
    fun hs => fetches_of_memory hlo ?_⟩
  rw [memory_run (hbefore.load _ _) hk hs, hmemory]
  exact hfetch

theorem storesNothing_of_not {i : Instruction} (hi : m.instruction? = some i)
    (hs : i.stores = false) (c : Command) : m.StoresNothing c := by
  intro _ j hj hstores
  rw [hi] at hj
  cases hj
  rw [hs] at hstores
  cases hstores

theorem storesNothing_of_ne {c : Command} (hc : c ≠ .cycle) : m.StoresNothing c :=
  fun h => absurd h hc

def unaligned : List UInt8 := [0x60, 0x0A, 0x12]

theorem fetches_unaligned :
    let m := (((fresh fun _ => 0).run [.press 2]).load (numbers unaligned) 0x301).machine
    ((0x200 : Int) ≤ 0x301 ∧ (0x301 : Int) + unaligned.length ≤ 4096 ∧
      ∀ c ∈ [Command.cycle, .tick, .press 3], c.keepsProgram) ∧
    m.Throughout StoresNothing [.cycle, .tick, .press 3] ∧
      (m.run [.cycle, .tick, .press 3]).Fetches unaligned 0x301 ∧
      (m.run [.cycle, .tick, .press 3]).memory.fetch 0x303 = .ok (.jump 0x200) := by
  intro m
  have hlo : (0x200 : Int) ≤ 0x301 := by decide
  have hhi : (0x301 : Int) + unaligned.length ≤ 4096 := by decide
  have hk : ∀ c ∈ [Command.cycle, .tick, .press 3], c.keepsProgram := by decide
  have hi : m.instruction? = some (.setByte 0 10) :=
    instruction?_load (.ofRun _ [.press 2]) (loadFault?_numbers hlo hhi) rfl
  have hs : m.Throughout StoresNothing [.cycle, .tick, .press 3] :=
    .cons (storesNothing_of_not hi rfl _) (.cons (storesNothing_of_ne nofun)
      (.cons (storesNothing_of_ne nofun) (.nil _)))
  obtain ⟨-, -, hfetches⟩ := fetches_of_session (fun _ => 0) [.press 2] hlo hhi hk
  have hplace : (0x301 : Int) + unaligned.length - 1 = 0x303 := by decide
  have hword : Instruction.decode (Instruction.wordOf 0x12 0) = .ok (.jump 0x200) := rfl
  have hlone := (hfetches hs).lone 0x12 rfl (by decide)
  rw [hplace, hword] at hlone
  exact ⟨⟨hlo, hhi, hk⟩, hs, hfetches hs, hlone⟩

end Machine

end ChipEight
