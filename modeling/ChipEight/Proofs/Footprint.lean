import ChipEight.Proofs.Frame

namespace ChipEight

/-- The registers that an instruction may change. -/
def Instruction.targets : Instruction → List Register
  | .setByte x _ | .set x _ | .or x _ | .and x _ | .xor x _ | .random x _ | .readDelay x => [x]
  | .addByte x _ | .add x _ | .sub x _ | .shiftRight x _ | .subFrom x _ | .shiftLeft x _ =>
    [x, Register.flag]
  | .draw _ _ _ => [Register.flag]
  | .loadRegisters x => Register.upTo x
  | _ => []

namespace Machine

def indexAfter (m : Machine) : Instruction → Int
  | .setIndex a => a.val
  | .addIndex x => m.index + m.registers[x].toNat
  | .selectGlyph x => 5 * m.registers[x].toNat
  | _ => m.index

structure Computes (m : Machine) (i : Instruction) (n : Machine) : Prop where
  index_eq : n.index = m.indexAfter i
  registers : ∀ r ∉ i.targets, n.registers[r] = m.registers[r]

structure Footprint (m : Machine) (i : Instruction) (n : Machine) : Prop
    extends m.Frame i.opcode n, m.Computes i n where
  delay_eq : ∀ x, i = .setDelay x → n.delay = m.registers[x].toNat
  sound_eq : ∀ x, i = .setSound x → n.sound = m.registers[x].toNat

variable {m n : Machine} {i : Instruction}

namespace Computes

theorem of_registers_eq (hi : n.index = m.indexAfter i) (hr : n.registers = m.registers) :
    m.Computes i n :=
  ⟨hi, fun _ _ => by rw [hr]⟩

theorem put (h : m.Computes i n) {x : Register} (hx : x ∈ i.targets) (b : UInt8) :
    m.Computes i (n.setRegister x b) := by
  refine ⟨h.index_eq, fun r hr => ?_⟩
  have hxr : x ≠ r := fun he => hr (he ▸ hx)
  exact (RegisterFile.getElem_put n.registers x r b).trans ((if_neg hxr).trans (h.registers r hr))

theorem skipIf (hi : m.index = m.indexAfter i) (b : Bool) : m.Computes i (m.skipIf b) := by
  cases b <;> exact of_registers_eq hi rfl

theorem skipIfKey (hi : m.index = m.indexAfter i) (key : UInt8) (down : Bool) :
    m.Computes i (m.skipIfKey key down).machine := by
  by_cases hk : key.toNat < 16
  · rw [skipIfKey_of_lt hk]
    exact skipIf hi _
  · rw [skipIfKey_of_le (by omega)]
    exact of_registers_eq hi rfl

theorem returnFromCall : m.Computes .ret m.returnFromCall.machine := by
  cases hs : m.stack.frames with
  | nil =>
    rw [returnFromCall_of_nil hs]
    exact of_registers_eq rfl rfl
  | cons a rest =>
    rw [returnFromCall_of_cons hs]
    exact of_registers_eq rfl rfl

theorem callTo (a : Fin 4096) : m.Computes (.call a) (m.callTo a.val).machine := by
  by_cases hs : m.stack.capacity ≤ m.stack.size
  · rw [callTo_of_full hs]
    exact of_registers_eq rfl rfl
  · rw [callTo_of_lt (by omega)]
    exact of_registers_eq rfl rfl

theorem storeDigits (x : Register) :
    m.Computes (.storeDigits x) (m.storeDigits m.registers[x]).machine := by
  by_cases hm : (m.memory.size : Int) ≤ m.index + 2
  · rw [storeDigits_of_le _ hm]
    exact of_registers_eq rfl rfl
  · rw [storeDigits_of_lt _ (by omega)]
    exact of_registers_eq rfl rfl

theorem drawSprite (hi : 0 ≤ m.index) (x y : Register) (n : Fin 16) :
    m.Computes (.draw x y n) (m.drawSprite m.registers[x] m.registers[y] n.val).machine := by
  have hm : m.Computes (.draw x y n) m := of_registers_eq rfl rfl
  by_cases hn : (m.memory.size : Int) < m.index + n.val
  · rw [drawSprite_of_lt _ _ hn]
    exact hm
  · obtain ⟨screen, erased, -, he⟩ :=
      drawSprite_of_le m.registers[x] m.registers[y] hi (Int.not_lt.mp hn)
    have hs : m.Computes (.draw x y n) { m with screen } := of_registers_eq rfl rfl
    rw [he]
    exact hs.put List.mem_cons_self _

theorem loadRegisters (hi : 0 ≤ m.index) (x : Register) :
    m.Computes (.loadRegisters x) (m.loadRegisters (Register.upTo x)).machine := by
  obtain ⟨registers, hs, hv⟩ := loadRegisters_upTo hi x
  rw [hs]
  refine ⟨rfl, fun r hr => (hv r).trans (if_neg ?_)⟩
  rintro ⟨hx, -⟩
  exact hr ((Register.mem_upTo x r).mpr hx)

end Computes

theorem computes_effect (h : m.WellFormed) (i : Instruction) :
    m.Computes i (m.effect i).machine := by
  have hflag : ∀ x, Register.flag ∈ [x, Register.flag] := fun x =>
    List.mem_cons_of_mem x List.mem_cons_self
  have hm : m.index = m.indexAfter i → m.Computes i m := fun hi => .of_registers_eq hi rfl
  cases i with
  | ret => exact .returnFromCall
  | call a => exact .callTo a
  | skipEqByte x b | skipNeByte x b | skipEq x y | skipNe x y => exact .skipIf rfl _
  | skipDown x | skipUp x => exact .skipIfKey rfl _ _
  | setByte x b | set x y | or x y | and x y | xor x y =>
    exact (hm rfl).put List.mem_cons_self _
  -- the flag is the last to be set, except by the shifts
  | addByte x b | add x y | sub x y | subFrom x y =>
    exact ((hm rfl).put List.mem_cons_self _).put (hflag x) _
  | shiftRight x y | shiftLeft x y =>
    exact ((hm rfl).put (hflag x) _).put List.mem_cons_self _
  | random x mask =>
    have hd : m.Computes (.random x mask) { m with draws := m.draws.advance } :=
      .of_registers_eq rfl rfl
    exact hd.put List.mem_cons_self _
  | draw x y n => exact .drawSprite h.index_nonneg x y n
  | readDelay x =>
    rw [effect, readDelay_eq h.delay]
    exact (hm rfl).put List.mem_cons_self _
  | storeDigits x => exact .storeDigits x
  | storeRegisters x =>
    obtain ⟨memory, hs, -⟩ := storeRegisters_upTo h.index_nonneg x
    rw [effect, hs]
    exact .of_registers_eq rfl rfl
  | loadRegisters x => exact .loadRegisters h.index_nonneg x
  | _ => exact .of_registers_eq rfl rfl

theorem footprint_effect (h : m.WellFormed) (i : Instruction) :
    m.Footprint i (m.effect i).machine where
  toFrame := frame_effect h i
  toComputes := computes_effect h i
  delay_eq x hi := by
    subst hi
    rfl
  sound_eq x hi := by
    subst hi
    rfl

theorem Footprint.advance (h : m.Footprint i n) : m.Footprint i n.advance :=
  { h with }

theorem footprint_cycle (h : m.WellFormed) (hi : m.instruction? = some i) :
    m.Footprint i m.cycle.machine := by
  cases hf : (m.effect i).fault with
  | some f =>
    rw [cycle_of_fault hi hf]
    exact footprint_effect h i
  | none =>
    rw [cycle_of_success hi hf]
    exact (footprint_effect h i).advance

/-- Whatever the host did to the machine: a cycle changes what its instruction is there to change,
and nothing else. -/
theorem footprint_of_run (stream : Nat → UInt8) (commands : List Command) :
    let m := (fresh stream).run commands
    (m.instruction? = none → m.cycle.machine = m) ∧
      ∀ i, m.instruction? = some i → m.Footprint i m.cycle.machine := by
  intro m
  exact ⟨machine_cycle_of_none, fun i hi => footprint_cycle (.ofRun stream commands) hi⟩

end Machine

end ChipEight
