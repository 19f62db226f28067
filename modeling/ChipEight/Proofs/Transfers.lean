import ChipEight.Proofs.Loading

namespace ChipEight

theorem Memory.ext_byteAt {m n : Memory} (hs : m.size = n.size)
    (h : ∀ a, m.byteAt a = n.byteAt a) : m = n := by
  have hbytes : m.bytes = n.bytes := by
    apply Array.ext hs
    intro a hm hn
    have ha := h a
    simp only [byteAt, Array.getD_eq_getD_getElem?, Array.getElem?_eq_getElem hm,
      Array.getElem?_eq_getElem hn, Option.getD_some] at ha
    exact ha
  cases m
  cases n
  exact congrArg Memory.mk hbytes

namespace Machine

/-- Executing an instruction succeeds and comes to a machine with a property. -/
def Attains (m : Machine) (i : Instruction) (P : Machine → Prop) : Prop :=
  ∀ o, m.Executes i o → o.fault = none ∧ P o.machine

structure StoresBlock (m : Machine) (x : Register) (n : Machine) : Prop where
  inside : ∀ r ≤ x, n.memory.byteAt (m.index.toNat + r.val) = m.registers[r]
  outside : ∀ a : Nat, ¬ (m.index ≤ a ∧ a ≤ m.index + x.val) →
    n.memory.byteAt a = m.memory.byteAt a
  size_eq : n.memory.size = m.memory.size
  registers_eq : n.registers = m.registers
  index_eq : n.index = m.index

structure LoadsBlock (m : Machine) (x : Register) (n : Machine) : Prop where
  inside : ∀ r ≤ x, n.registers[r] = m.memory.byteAt (m.index.toNat + r.val)
  outside : ∀ r, x < r → n.registers[r] = m.registers[r]
  memory_eq : n.memory = m.memory
  index_eq : n.index = m.index

structure StoresDigits (m : Machine) (x : Register) (n : Machine) : Prop where
  inside : ∀ k < 3, n.memory.byteAt (m.index.toNat + k) = (decimalDigits m.registers[x]).getD k 0
  size_eq : n.memory.size = m.memory.size
  index_eq : n.index = m.index

/-- What is stored is found again, by any machine that has kept memory and I, and what is loaded is
there already. -/
structure RoundTrips (m : Machine) (x : Register) : Prop where
  store : m.Attains (.storeRegisters x) (m.StoresBlock x)
  reload : m.Attains (.storeRegisters x) fun stored =>
    ∀ n : Machine, n.memory = stored.memory → n.index = stored.index → ∀ y ≤ x,
      n.Attains (.loadRegisters y) fun k =>
        (∀ r ≤ y, k.registers[r] = m.registers[r]) ∧ ∀ r, y < r → k.registers[r] = n.registers[r]
  restore : m.Attains (.loadRegisters x) fun loaded =>
    loaded.Attains (.storeRegisters x) fun n => n.memory = m.memory

def SpellsOut (m : Machine) (x : Register) : Prop :=
  m.Attains (.storeDigits x) fun stored => stored.Attains (.loadRegisters 2) fun n =>
    let digit (r : Register) : Nat := n.registers[r].toNat
    (digit 0 ≤ 9 ∧ digit 1 ≤ 9 ∧ digit 2 ≤ 9) ∧
      100 * digit 0 + 10 * digit 1 + digit 2 = m.registers[x].toNat

variable {m n : Machine} {i : Instruction} {x y : Register} {P : Machine → Prop}

theorem attains_of_effect (hf : (m.effect i).fault = none)
    (hP : ∀ pc jumped, P { (m.effect i).machine with pc, jumped }) : m.Attains i P := by
  intro o ho
  obtain ⟨pc, jumped, hmachine⟩ := ho.exists_machine_eq
  rw [ho.fault_eq, hmachine]
  exact ⟨hf, hP pc jumped⟩

theorem Attains.imp {Q : Machine → Prop} (h : m.Attains i P) (hPQ : ∀ n, P n → Q n) :
    m.Attains i Q :=
  fun o ho => (h o ho).imp_right (hPQ o.machine)

theorem blockFault?_of_lt (hx : m.index + x.val < m.memory.size) :
    m.blockFault? (Register.upTo x) = none := by
  rw [blockFault?_upTo, if_neg (Int.not_le.mpr hx)]

theorem attains_storesBlock (hi : 0 ≤ m.index) (hx : m.index + x.val < m.memory.size) :
    m.Attains (.storeRegisters x) (m.StoresBlock x) := by
  obtain ⟨memory, hs, hsize, hin, hout⟩ := storeRegisters_upTo hi x
  apply attains_of_effect
  · rw [effect, hs]
    exact blockFault?_of_lt hx
  · intro pc jumped
    rw [effect, hs]
    refine ⟨fun r hr => ?_, fun a ha => hout a (by omega), hsize, rfl, rfl⟩
    have hrx := Fin.le_def.mp hr
    exact hin r hr _ (by omega) (by omega)

theorem attains_loadsBlock (hi : 0 ≤ m.index) (hx : m.index + x.val < m.memory.size) :
    m.Attains (.loadRegisters x) (m.LoadsBlock x) := by
  obtain ⟨registers, hs, hv⟩ := loadRegisters_upTo hi x
  apply attains_of_effect
  · rw [effect, hs]
    exact blockFault?_of_lt hx
  · intro pc jumped
    rw [effect, hs]
    refine ⟨fun r hr => ?_, fun r hr => ?_, rfl, rfl⟩
    · have hrx := Fin.le_def.mp hr
      have hplace : (m.index + r.val).toNat = m.index.toNat + r.val := by omega
      exact (hv r).trans ((if_pos ⟨hr, by omega⟩).trans (congrArg m.memory.byteAt hplace))
    · exact (hv r).trans (if_neg fun hc => absurd hc.1 (Fin.not_le.mpr hr))

theorem StoresBlock.attains_reload (hs : m.StoresBlock x n) (hi : 0 ≤ m.index)
    (hx : m.index + x.val < m.memory.size) {k : Machine} (hmemory : k.memory = n.memory)
    (hindex : k.index = n.index) (hy : y ≤ x) :
    k.Attains (.loadRegisters y) fun l => (∀ r ≤ y, l.registers[r] = m.registers[r]) ∧
      ∀ r, y < r → l.registers[r] = k.registers[r] := by
  have hyx := Fin.le_def.mp hy
  have hki : k.index = m.index := hindex.trans hs.index_eq
  have hksize : k.memory.size = m.memory.size := by rw [hmemory, hs.size_eq]
  refine (attains_loadsBlock (by omega) (by omega)).imp fun l hl => ⟨fun r hr => ?_, hl.outside⟩
  rw [hl.inside r hr, hmemory, hki, hs.inside r (Fin.le_trans hr hy)]

theorem LoadsBlock.attains_restore (hl : m.LoadsBlock x n) (hi : 0 ≤ m.index)
    (hx : m.index + x.val < m.memory.size) :
    n.Attains (.storeRegisters x) fun k => k.memory = m.memory := by
  have hni := hl.index_eq
  have hnsize : n.memory.size = m.memory.size := by rw [hl.memory_eq]
  refine (attains_storesBlock (by omega) (by omega)).imp fun k hk => ?_
  apply Memory.ext_byteAt (hk.size_eq.trans hnsize)
  intro a
  by_cases ha : n.index ≤ a ∧ a ≤ n.index + x.val
  -- what stands there has just been loaded from there
  · have hr : a - n.index.toNat < 16 := by omega
    have hrx : (⟨_, hr⟩ : Register) ≤ x := Fin.le_def.mpr (by simp only; omega)
    have hplace : n.index.toNat + (a - n.index.toNat) = a := by omega
    have hstored := hk.inside ⟨_, hr⟩ hrx
    have hloaded := hl.inside ⟨_, hr⟩ hrx
    rw [← hni] at hloaded
    simp only [hplace] at hstored hloaded
    exact hstored.trans hloaded
  · rw [hk.outside a ha, hl.memory_eq]

theorem roundTrips (hi : 0 ≤ m.index) (hx : m.index + x.val < m.memory.size) : m.RoundTrips x where
  store := attains_storesBlock hi hx
  reload := (attains_storesBlock hi hx).imp fun _ hs _ hmemory hindex _ hy =>
    hs.attains_reload hi hx hmemory hindex hy
  restore := (attains_loadsBlock hi hx).imp fun _ hl => hl.attains_restore hi hx

theorem decimalDigits_spell (b : UInt8) :
    ((b / 100).toNat ≤ 9 ∧ (b / 10 % 10).toNat ≤ 9 ∧ (b % 10).toNat ≤ 9) ∧
      100 * (b / 100).toNat + 10 * (b / 10 % 10).toNat + (b % 10).toNat = b.toNat := by
  have hb := b.toNat_lt
  simp only [UInt8.toNat_mod, UInt8.toNat_div, UInt8.reduceToNat]
  omega

theorem attains_storesDigits (hi : 0 ≤ m.index) (hx : m.index + 2 < m.memory.size) :
    m.Attains (.storeDigits x) (m.StoresDigits x) := by
  have he := storeDigits_of_lt m.registers[x] hx
  have hlen : (decimalDigits m.registers[x]).length = 3 := rfl
  have hfit : m.index + (decimalDigits m.registers[x]).length ≤ m.memory.size := by omega
  apply attains_of_effect
  · rw [effect, he]
    rfl
  · intro pc jumped
    rw [effect, he]
    refine ⟨fun k hk => ?_, Memory.size_overlay hi hfit, rfl⟩
    refine (Memory.byteAt_overlay hi hfit _).trans ?_
    rw [if_pos (by omega), Nat.add_sub_cancel_left]

theorem StoresDigits.attains_spelled (hs : m.StoresDigits x n) (hi : 0 ≤ m.index)
    (hx : m.index + 2 < m.memory.size) : n.Attains (.loadRegisters 2) fun k =>
      k.registers[(0 : Register)] = m.registers[x] / 100 ∧
      k.registers[(1 : Register)] = m.registers[x] / 10 % 10 ∧
      k.registers[(2 : Register)] = m.registers[x] % 10 := by
  have hni := hs.index_eq
  have hnsize := hs.size_eq
  have hlast : n.index + (2 : Register).val < n.memory.size := by
    show n.index + 2 < n.memory.size
    omega
  refine (attains_loadsBlock (by omega) hlast).imp fun k hk => ?_
  have hdigit : ∀ r : Register, r ≤ 2 →
      k.registers[r] = (decimalDigits m.registers[x]).getD r.val 0 := by
    intro r hr
    rw [hk.inside r hr, hni]
    exact hs.inside r.val (Nat.lt_succ_of_le (Fin.le_def.mp hr))
  exact ⟨hdigit 0 (by decide), hdigit 1 (by decide), hdigit 2 (by decide)⟩

theorem spellsOut (hi : 0 ≤ m.index) (hx : m.index + 2 < m.memory.size) (x : Register) :
    m.SpellsOut x := by
  refine (attains_storesDigits hi hx).imp fun stored hs => ?_
  refine (hs.attains_spelled hi hx).imp fun n hn => ?_
  obtain ⟨h0, h1, h2⟩ := hn
  simp only [h0, h1, h2]
  exact decimalDigits_spell m.registers[x]

/-- Whatever the host did to the machine: blocks of registers that lie inside of the memory come
back as they were stored, and so do the digits of a register. -/
theorem blocks_round_trip (stream : Nat → UInt8) (commands : List Command) (x : Register) :
    let m := (fresh stream).run commands
    (m.index + x.val < 4096 → m.RoundTrips x) ∧ (m.index + 2 < 4096 → m.SpellsOut x) := by
  intro m
  have h : m.WellFormed := .ofRun stream commands
  have hsize := h.memory_size
  exact ⟨fun hx => roundTrips h.index_nonneg (by omega),
    fun hx => spellsOut h.index_nonneg (by omega) x⟩

def pointingHigh : List Command := [.load [0xAF, 0xF0] 0x200, .cycle]

theorem index_pointingHigh (stream : Nat → UInt8) :
    ((fresh stream).run pointingHigh).index = 0xFF0 := by
  have hf : loadFault? [0xAF, 0xF0] 0x200 = none := by decide
  have hi : ((fresh stream).load [0xAF, 0xF0] 0x200).machine.instruction? =
      some (.setIndex 0xFF0) := instruction?_load (.fresh stream) hf rfl
  rw [pointingHigh, run_cons, run_cons, run_nil, perform, perform]
  generalize ((fresh stream).load [0xAF, 0xF0] 0x200).machine = m at hi
  rw [cycle_of_success hi rfl]
  rfl

theorem blocks_round_trip_pointingHigh :
    let m := (fresh fun _ => 0).run pointingHigh
    m.index + (15 : Register).val < 4096 ∧ m.RoundTrips 15 ∧ m.index + 2 < 4096 ∧
      m.SpellsOut 15 := by
  obtain ⟨htrips, hspells⟩ := blocks_round_trip (fun _ => 0) pointingHigh 15
  have hindex := index_pointingHigh fun _ => 0
  generalize (fresh fun _ => 0).run pointingHigh = m at htrips hspells hindex ⊢
  have hx : m.index + (15 : Register).val < 4096 := by
    rw [hindex]
    decide
  have hdigits : m.index + 2 < 4096 := by
    rw [hindex]
    decide
  exact ⟨hx, htrips hx, hdigits, hspells hdigits⟩

end Machine

end ChipEight
