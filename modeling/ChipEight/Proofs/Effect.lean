import ChipEight.Machine.Command

namespace ChipEight

namespace Register

theorem pairwise_upTo (x : Register) : (upTo x).Pairwise (· < ·) :=
  (List.pairwise_lt_finRange 16).filter _

theorem le_of_find? {p : Register → Bool} {rs : List Register} (hr : rs.Pairwise (· < ·))
    {r q : Register} (h : rs.find? p = some r) (hq : q ∈ rs) (hp : p q = true) : r ≤ q := by
  obtain ⟨_, as, bs, rfl, has⟩ := List.find?_eq_some_iff_append.mp h
  rcases List.mem_append.mp hq with hq | hq
  · have hn := has q hq
    rw [hp] at hn
    exact absurd hn (by decide)
  · rcases List.mem_cons.mp hq with rfl | hq
    · exact Fin.le_refl _
    · exact Fin.le_of_lt ((List.pairwise_cons.mp (List.pairwise_append.mp hr).2.1).1 q hq)

end Register

namespace Machine

variable {m : Machine}

theorem returnFromCall_of_nil (h : m.stack.frames = []) :
    m.returnFromCall = .failed m .emptyStack := by
  simp only [returnFromCall, CallStack.pop, h]

theorem returnFromCall_of_cons {a : Int} {rest : List Int} (h : m.stack.frames = a :: rest) :
    m.returnFromCall =
      .done { m with stack := { m.stack with frames := rest }, pc := a, jumped := true } := by
  simp only [returnFromCall, CallStack.pop, h, jumpTo]

theorem callTo_of_full (h : m.stack.capacity ≤ m.stack.size) (a : Int) :
    m.callTo a = .failed m (.fullStack (m.pc + Instruction.size)) := by
  simp only [callTo, CallStack.push, if_pos h]

theorem callTo_of_lt (h : m.stack.size < m.stack.capacity) (a : Int) :
    m.callTo a = .done { m with
      stack := { m.stack with frames := (m.pc + Instruction.size) :: m.stack.frames }
      pc := a
      jumped := true } := by
  simp only [callTo, CallStack.push, if_neg (Int.not_le.mpr h), jumpTo]

/-- The count is so small that it can be quoted. -/
theorem drawSprite_of_lt (x y : UInt8) {n : Fin 16}
    (h : (m.memory.size : Int) < m.index + n.val) : m.drawSprite x y n.val =
      ⟨m, some (.accessOutside (m.index + n.val)), [.spriteOutside m.index n.val]⟩ := by
  have hn : m.digitLimit.exceeded? (n.val : Int) = none :=
    Text.DigitLimit.exceeded?_eq_none_iff.mpr (m.digitLimit.admits_of_lt (by omega))
  simp only [drawSprite, Memory.readSprite, Memory.sprite?, if_pos (Or.inr h), hn]

theorem drawSprite_of_le (x y : UInt8) {n : Nat} (h : 0 ≤ m.index)
    (hn : m.index + n ≤ m.memory.size) : ∃ screen erased,
      m.screen.stamp x.toNat y.toNat ⟨Stretch.items m.memory.bytes m.index (m.index + n)⟩ =
        (screen, erased) ∧
      m.drawSprite x y n = .done ({ m with screen }.setFlag erased) := by
  refine ⟨_, _, rfl, ?_⟩
  have hs : ¬ (m.index < 0 ∨ (m.memory.size : Int) < m.index + n) := by omega
  simp only [drawSprite, Memory.readSprite, Memory.sprite?, if_neg hs]
  rfl

theorem drawSprite_of_success {x y : UInt8} {n : Fin 16} (h : 0 ≤ m.index)
    (hf : (m.drawSprite x y n.val).fault = none) : ∃ (sprite : Sprite) (screen : Framebuffer)
      (erased : Bool), sprite.height = n.val ∧
      m.screen.stamp x.toNat y.toNat sprite = (screen, erased) ∧
      m.drawSprite x y n.val = .done ({ m with screen }.setFlag erased) := by
  by_cases hn : (m.memory.size : Int) < m.index + n.val
  · rw [drawSprite_of_lt x y hn] at hf
    cases hf
  · have hle := Int.not_lt.mp hn
    obtain ⟨screen, erased, hs, he⟩ := drawSprite_of_le x y h hle
    exact ⟨_, screen, erased, Stretch.size_items h hle, hs, he⟩

theorem skipIfKey_of_lt {key : UInt8} (h : key.toNat < 16) (down : Bool) :
    m.skipIfKey key down = .done (m.skipIf (m.keypad.isDown ⟨key.toNat, h⟩ == down)) := by
  unfold skipIfKey
  rw [Key.ofValue_of_lt _ h]

theorem skipIfKey_of_le {key : UInt8} (h : 16 ≤ key.toNat) (down : Bool) :
    m.skipIfKey key down = .failed m (.invalidKey key.toNat) := by
  have hkey := key.toNat_lt
  unfold skipIfKey
  rw [Key.ofValue_of_not _ (by omega),
    Fault.quoting_of_admits (m.digitLimit.admits_of_lt (by omega))]

theorem readDelay_eq (h : 0 ≤ m.delay ∧ m.delay < 256) (x : Register) :
    m.readDelay x = .done (m.setRegister x (UInt8.ofNat m.delay.toNat)) := by
  simp only [readDelay, RegisterFile.store, if_pos h, setRegister]

theorem storeDigits_of_le (b : UInt8) (h : (m.memory.size : Int) ≤ m.index + 2) :
    m.storeDigits b = .failed m (.accessOutside (m.index + 2)) := by
  simp only [storeDigits, if_pos h]

theorem storeDigits_of_lt (b : UInt8) (h : m.index + 2 < m.memory.size) :
    m.storeDigits b = .done { m with memory := m.memory.overlay m.index (decimalDigits b) } := by
  simp only [storeDigits, if_neg (Int.not_le.mpr h)]

def blockFault? (m : Machine) (rs : List Register) : Option Fault :=
  (rs.find? fun r => (m.memory.size : Int) ≤ m.index + r.val).map fun r =>
    .accessOutside (m.index + r.val)

theorem blockFault?_cons_of_le {r : Register} (h : (m.memory.size : Int) ≤ m.index + r.val)
    (rs : List Register) : m.blockFault? (r :: rs) = some (.accessOutside (m.index + r.val)) := by
  simp [blockFault?, h]

theorem blockFault?_cons_of_lt {r : Register} (h : m.index + r.val < m.memory.size)
    (rs : List Register) : m.blockFault? (r :: rs) = m.blockFault? rs := by
  simp [blockFault?, Int.not_le.mpr h]

/-- A block that starts with V0 first leaves the memory at its end, unless it starts behind it. -/
theorem blockFault?_upTo (x : Register) : m.blockFault? (Register.upTo x) =
    if (m.memory.size : Int) ≤ m.index + x.val
      then some (.accessOutside (max m.index m.memory.size)) else none := by
  split
  · next hx =>
    have hk : (max m.index m.memory.size - m.index).toNat < 16 := by omega
    let k : Register := ⟨_, hk⟩
    have hkx : k ∈ Register.upTo x := by
      apply (Register.mem_upTo x k).mpr
      apply Fin.le_def.mpr
      simp only [k]
      omega
    have hp : (decide ((m.memory.size : Int) ≤ m.index + k.val)) = true := by
      simp only [k, decide_eq_true_eq]
      omega
    cases hf : (Register.upTo x).find? fun r => (m.memory.size : Int) ≤ m.index + r.val with
    | none =>
      have hn := List.find?_eq_none.mp hf k hkx
      exact absurd hp hn
    | some r =>
      have hrk := Fin.le_def.mp (Register.le_of_find? (Register.pairwise_upTo x) hf hkx hp)
      have hr := List.find?_some hf
      rw [decide_eq_true_eq] at hr
      have he : m.index + r.val = max m.index m.memory.size := by
        simp only [k] at hrk
        omega
      rw [blockFault?, hf, Option.map_some, he]
  · next hx =>
    have hf :
        (Register.upTo x).find? (fun r => (m.memory.size : Int) ≤ m.index + r.val) = none := by
      apply List.find?_eq_none.mpr
      intro r hr
      have hrx := Fin.le_def.mp ((Register.mem_upTo x r).mp hr)
      rw [decide_eq_true_eq]
      omega
    rw [blockFault?, hf, Option.map_none]

theorem storeRegisters_eq (h : 0 ≤ m.index) {rs : List Register} (hr : rs.Pairwise (· < ·)) :
    ∃ memory : Memory, m.storeRegisters rs = ⟨{ m with memory }, m.blockFault? rs, []⟩ ∧
      memory.size = m.memory.size ∧
      ∀ a : Nat, (∃ r ∈ rs, m.index + r.val = a ∧ a < m.memory.size ∧
          memory.byteAt a = m.registers[r]) ∨
        (∀ r ∈ rs, m.index + r.val = a → m.memory.size ≤ a) ∧
          memory.byteAt a = m.memory.byteAt a := by
  induction rs generalizing m with
  | nil => exact ⟨m.memory, rfl, rfl, fun a => .inr ⟨by simp, rfl⟩⟩
  | cons r rs ih =>
    obtain ⟨hlt, hrs⟩ := List.pairwise_cons.mp hr
    by_cases hm : (m.memory.size : Int) ≤ m.index + r.val
    · refine ⟨m.memory, ?_, rfl, fun a => .inr ⟨?_, rfl⟩⟩
      · rw [blockFault?_cons_of_le hm]
        simp only [storeRegisters, if_pos hm]
        rfl
      · intro q hq ha
        rcases List.mem_cons.mp hq with rfl | hq
        · omega
        -- the registers behind `r` lie even higher
        · have hqr := Fin.lt_def.mp (hlt q hq)
          omega
    · have hlo : 0 ≤ m.index + r.val := by omega
      have hhi : m.index + r.val < m.memory.size := by omega
      obtain ⟨n, hn, hsize, hbyte⟩ := Memory.exists_put hlo hhi m.registers[r]
      obtain ⟨memory, hs, hms, hb⟩ := ih (m := { m with memory := n }) h hrs
      refine ⟨memory, ?_, hms.trans hsize, fun a => ?_⟩
      · rw [blockFault?_cons_of_lt hhi]
        simp only [storeRegisters, if_neg hm, hn, hs, blockFault?, hsize]
      · rcases hb a with ⟨q, hq, ha, hlt', he⟩ | ⟨hno, he⟩
        · exact .inl ⟨q, List.mem_cons_of_mem _ hq, ha, hsize ▸ hlt', he⟩
        · by_cases ha : (a : Int) = m.index + r.val
          · refine .inl ⟨r, List.mem_cons_self, ha.symm, by omega, ?_⟩
            rw [he, hbyte a, if_pos ha]
          · refine .inr ⟨?_, by rw [he, hbyte a, if_neg ha]⟩
            intro q hq haq
            rcases List.mem_cons.mp hq with rfl | hq
            · exact absurd haq.symm ha
            · exact hsize ▸ hno q hq haq

theorem loadRegisters_eq (h : 0 ≤ m.index) {rs : List Register} (hr : rs.Pairwise (· < ·)) :
    ∃ registers : RegisterFile,
      m.loadRegisters rs = ⟨{ m with registers }, m.blockFault? rs, []⟩ ∧
      ∀ q : Register, (q ∈ rs ∧ m.index + q.val < m.memory.size ∧
          registers[q] = m.memory.byteAt (m.index + q.val).toNat) ∨
        (q ∈ rs → m.memory.size ≤ m.index + q.val) ∧ registers[q] = m.registers[q] := by
  induction rs generalizing m with
  | nil => exact ⟨m.registers, rfl, fun q => .inr ⟨nofun, rfl⟩⟩
  | cons r rs ih =>
    obtain ⟨hlt, hrs⟩ := List.pairwise_cons.mp hr
    by_cases hm : (m.memory.size : Int) ≤ m.index + r.val
    · refine ⟨m.registers, ?_, fun q => .inr ⟨fun hq => ?_, rfl⟩⟩
      · rw [blockFault?_cons_of_le hm]
        simp only [loadRegisters, if_pos hm]
        rfl
      · rcases List.mem_cons.mp hq with rfl | hq
        · exact hm
        · have hqr := Fin.lt_def.mp (hlt q hq)
          omega
    · have hlo : 0 ≤ m.index + r.val := by omega
      have hhi : m.index + r.val < m.memory.size := by omega
      obtain ⟨registers, hs, hv⟩ :=
        ih (m := m.setRegister r (m.memory.byteAt (m.index + r.val).toNat)) h hrs
      refine ⟨registers, ?_, fun q => ?_⟩
      · rw [blockFault?_cons_of_lt hhi]
        simp only [loadRegisters, if_neg hm, Memory.get_of_lt hlo hhi]
        exact hs
      · rcases hv q with ⟨hq, hin, he⟩ | ⟨hno, he⟩
        · exact .inl ⟨List.mem_cons_of_mem _ hq, hin, he⟩
        · have hput := RegisterFile.getElem_put m.registers r q
            (m.memory.byteAt (m.index + r.val).toNat)
          by_cases hrq : r = q
          · subst hrq
            exact .inl ⟨List.mem_cons_self, hhi, he.trans (hput.trans (if_pos rfl))⟩
          · refine .inr ⟨fun hq => ?_, he.trans (hput.trans (if_neg hrq))⟩
            exact hno ((List.mem_cons.mp hq).resolve_left (Ne.symm hrq))

theorem storeRegisters_upTo (h : 0 ≤ m.index) (x : Register) : ∃ memory : Memory,
    m.storeRegisters (Register.upTo x) =
      ⟨{ m with memory }, m.blockFault? (Register.upTo x), []⟩ ∧
    memory.size = m.memory.size ∧
    (∀ r : Register, r ≤ x → ∀ a : Nat, (a : Int) = m.index + r.val → a < m.memory.size →
      memory.byteAt a = m.registers[r]) ∧
    ∀ a : Nat, (a : Int) < m.index ∨ m.index + x.val < a → memory.byteAt a = m.memory.byteAt a := by
  obtain ⟨memory, hs, hsize, hb⟩ := storeRegisters_eq h (Register.pairwise_upTo x)
  refine ⟨memory, hs, hsize, fun r hr a ha hm => ?_, fun a ha => ?_⟩
  · rcases hb a with ⟨q, -, hq, -, he⟩ | ⟨hno, -⟩
    · have hqr : q = r := Fin.ext (by omega)
      rw [he, hqr]
    · have hle := hno r ((Register.mem_upTo x r).mpr hr) ha.symm
      omega
  · rcases hb a with ⟨q, hq, hqa, -, -⟩ | ⟨-, he⟩
    · have hqx := Fin.le_def.mp ((Register.mem_upTo x q).mp hq)
      omega
    · exact he

theorem loadRegisters_upTo (h : 0 ≤ m.index) (x : Register) : ∃ registers : RegisterFile,
    m.loadRegisters (Register.upTo x) =
      ⟨{ m with registers }, m.blockFault? (Register.upTo x), []⟩ ∧
    ∀ q : Register, registers[q] =
      if q ≤ x ∧ m.index + q.val < m.memory.size then m.memory.byteAt (m.index + q.val).toNat
      else m.registers[q] := by
  obtain ⟨registers, hs, hv⟩ := loadRegisters_eq h (Register.pairwise_upTo x)
  refine ⟨registers, hs, fun q => ?_⟩
  rcases hv q with ⟨hq, hin, he⟩ | ⟨hno, he⟩
  · rw [he, if_pos ⟨(Register.mem_upTo x q).mp hq, hin⟩]
  · rw [he, if_neg]
    rintro ⟨hq, hin⟩
    have hle := hno ((Register.mem_upTo x q).mpr hq)
    omega

def dueFault? (m : Machine) : Instruction → Option Fault
  | .ret => if m.stack.frames = [] then some .emptyStack else none
  | .call _ =>
    if m.stack.capacity ≤ m.stack.size then some (.fullStack (m.pc + Instruction.size)) else none
  | .draw _ _ n =>
    if (m.memory.size : Int) < m.index + n.val then some (.accessOutside (m.index + n.val))
    else none
  | .skipDown x | .skipUp x =>
    if 16 ≤ m.registers[x].toNat then some (.invalidKey m.registers[x].toNat) else none
  | .storeDigits _ =>
    if (m.memory.size : Int) ≤ m.index + 2 then some (.accessOutside (m.index + 2)) else none
  | .storeRegisters x | .loadRegisters x =>
    if (m.memory.size : Int) ≤ m.index + x.val
      then some (.accessOutside (max m.index m.memory.size)) else none
  | _ => none

theorem fault_skipIfKey (key : UInt8) (down : Bool) : (m.skipIfKey key down).fault =
    if 16 ≤ key.toNat then some (.invalidKey key.toNat) else none := by
  split
  · next h => rw [skipIfKey_of_le h]; rfl
  · next h => rw [skipIfKey_of_lt (by omega)]; rfl

theorem fault_effect (hi : 0 ≤ m.index) (hd : 0 ≤ m.delay ∧ m.delay < 256) (i : Instruction) :
    (m.effect i).fault = m.dueFault? i := by
  cases i with
  | ret =>
    cases hs : m.stack.frames with
    | nil => simp [effect, dueFault?, returnFromCall_of_nil hs, hs, Outcome.failed]
    | cons a rest => simp [effect, dueFault?, returnFromCall_of_cons hs, hs, Outcome.done]
  | call a =>
    simp only [effect, dueFault?]
    split
    · next h => rw [callTo_of_full h]; rfl
    · next h => rw [callTo_of_lt (by omega)]; rfl
  | draw x y n =>
    simp only [effect, dueFault?]
    split
    · next h => rw [drawSprite_of_lt _ _ h]
    · next h =>
      obtain ⟨_, _, _, he⟩ := drawSprite_of_le m.registers[x] m.registers[y] hi (Int.not_lt.mp h)
      rw [he]
      rfl
  | skipDown x => exact fault_skipIfKey _ _
  | skipUp x => exact fault_skipIfKey _ _
  | readDelay x => simp only [effect, dueFault?, readDelay_eq hd, Outcome.done]
  | storeDigits x =>
    simp only [effect, dueFault?]
    split
    · next h => rw [storeDigits_of_le _ h]; rfl
    · next h => rw [storeDigits_of_lt _ (by omega)]; rfl
  | storeRegisters x =>
    obtain ⟨_, hs, -⟩ := storeRegisters_upTo hi x
    rw [effect, hs]
    exact blockFault?_upTo x
  | loadRegisters x =>
    obtain ⟨_, hs, -⟩ := loadRegisters_upTo hi x
    rw [effect, hs]
    exact blockFault?_upTo x
  | _ => rfl

theorem machine_effect_of_fault (hi : 0 ≤ m.index) (hd : 0 ≤ m.delay ∧ m.delay < 256)
    {i : Instruction} {f : Fault} (h : (m.effect i).fault = some f)
    (hs : ∀ x, i ≠ .storeRegisters x) (hl : ∀ x, i ≠ .loadRegisters x) :
    (m.effect i).machine = m := by
  rw [fault_effect hi hd] at h
  cases i with
  | ret =>
    have hf := (Option.ite_none_right_eq_some.mp h).1
    rw [effect, returnFromCall_of_nil hf]
    rfl
  | call a =>
    have hf := (Option.ite_none_right_eq_some.mp h).1
    rw [effect, callTo_of_full hf]
    rfl
  | draw x y n =>
    have hf := (Option.ite_none_right_eq_some.mp h).1
    rw [effect, drawSprite_of_lt _ _ hf]
  | skipDown x | skipUp x =>
    have hf := (Option.ite_none_right_eq_some.mp h).1
    rw [effect, skipIfKey_of_le hf]
    rfl
  | storeDigits x =>
    have hf := (Option.ite_none_right_eq_some.mp h).1
    rw [effect, storeDigits_of_le _ hf]
    rfl
  | storeRegisters x => exact absurd rfl (hs x)
  | loadRegisters x => exact absurd rfl (hl x)
  | _ => cases h

/-- What an instruction that fails leaves: the machine as it was, or, where a block of registers was
being copied, the part of the copy that lies inside of the memory. -/
def Residue (m : Machine) : Instruction → Machine → Prop
  | .storeRegisters x, n => ∃ memory : Memory, n = { m with memory } ∧ memory.size = m.memory.size ∧
      (∀ a : Nat, m.index ≤ a → a < m.memory.size →
        ∃ r : Register, r ≤ x ∧ m.index + r.val = a ∧ memory.byteAt a = m.registers[r]) ∧
      ∀ a : Nat, (a : Int) < m.index → memory.byteAt a = m.memory.byteAt a
  | .loadRegisters _, n => ∃ registers : RegisterFile, n = { m with registers } ∧
      ∀ r : Register, registers[r] =
        if m.index + r.val < m.memory.size then m.memory.byteAt (m.index + r.val).toNat
        else m.registers[r]
  | _, n => n = m

theorem residue_effect (hi : 0 ≤ m.index) (hd : 0 ≤ m.delay ∧ m.delay < 256) {i : Instruction}
    {f : Fault} (h : (m.effect i).fault = some f) : m.Residue i (m.effect i).machine := by
  cases i with
  | storeRegisters x =>
    rw [fault_effect hi hd] at h
    have hx := (Option.ite_none_right_eq_some.mp h).1
    obtain ⟨memory, hs, hsize, hin, hout⟩ := storeRegisters_upTo hi x
    refine ⟨memory, congrArg Outcome.machine hs, hsize, fun a ha hm => ?_, fun a ha => ?_⟩
    · have hr : (a - m.index).toNat < 16 := by omega
      have hrx : (⟨_, hr⟩ : Register) ≤ x := Fin.le_def.mpr (by simp only; omega)
      have he : m.index + ((a - m.index).toNat : Int) = a := by omega
      exact ⟨⟨_, hr⟩, hrx, he, hin _ hrx a he.symm hm⟩
    · exact hout a (.inl ha)
  | loadRegisters x =>
    rw [fault_effect hi hd] at h
    have hx := (Option.ite_none_right_eq_some.mp h).1
    obtain ⟨registers, hs, hv⟩ := loadRegisters_upTo hi x
    refine ⟨registers, congrArg Outcome.machine hs, fun r => ?_⟩
    rw [hv r]
    by_cases hr : m.index + r.val < m.memory.size
    · have hrx : r ≤ x := Fin.le_def.mpr (by omega)
      rw [if_pos ⟨hrx, hr⟩, if_pos hr]
    · rw [if_neg (fun hc => hr hc.2), if_neg hr]
  | _ => exact machine_effect_of_fault hi hd h nofun nofun

theorem Residue.exists_eq {n : Machine} {i : Instruction} (h : m.Residue i n) :
    ∃ memory registers, n = { m with memory, registers } := by
  cases i with
  | storeRegisters x =>
    obtain ⟨memory, rfl, -⟩ := h
    exact ⟨memory, m.registers, rfl⟩
  | loadRegisters x =>
    obtain ⟨registers, rfl, -⟩ := h
    exact ⟨m.memory, registers, rfl⟩
  | _ =>
    obtain rfl := h
    exact ⟨n.memory, n.registers, rfl⟩

theorem Residue.pc_eq {n : Machine} {i : Instruction} (h : m.Residue i n) :
    n.pc = m.pc ∧ n.jumped = m.jumped := by
  obtain ⟨memory, registers, rfl⟩ := h.exists_eq
  exact ⟨rfl, rfl⟩

end Machine

end ChipEight
