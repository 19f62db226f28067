import ChipEight.Proofs.Invariant

namespace ChipEight

namespace Instruction

theorem opcode_eq_ret_iff {i : Instruction} : i.opcode = .ret ↔ i = .ret := by
  cases i <;> simp [opcode]

theorem opcode_eq_call_iff {i : Instruction} : i.opcode = .call ↔ ∃ a, i = .call a := by
  cases i <;> simp [opcode]

theorem opcode_eq_awaitKey_iff {i : Instruction} :
    i.opcode = .awaitKey ↔ ∃ x, i = .awaitKey x := by
  cases i <;> simp [opcode]

end Instruction

/-- Whether a command lets time pass or moves a key. -/
def Command.isStimulus : Command → Bool
  | .tick | .press _ | .release _ => true
  | _ => false

namespace Machine

structure Frame (m : Machine) (o : Opcode) (n : Machine) : Prop where
  memory : o ≠ .storeDigits → o ≠ .storeRegisters → n.memory = m.memory
  stack : o ≠ .call → o ≠ .ret → n.stack = m.stack
  screen : o ≠ .cls → o ≠ .draw → n.screen = m.screen
  keypad : n.keypad = m.keypad
  delay : o ≠ .setDelay → n.delay = m.delay
  sound : o ≠ .setSound → n.sound = m.sound
  waiting : o ≠ .awaitKey → n.waiting = m.waiting
  draws : o ≠ .random → n.draws = m.draws
  digitLimit : n.digitLimit = m.digitLimit

variable {m : Machine} {i : Instruction}

namespace Frame

theorem refl (m : Machine) (o : Opcode) : m.Frame o m :=
  ⟨fun _ _ => rfl, fun _ _ => rfl, fun _ _ => rfl, rfl, fun _ => rfl, fun _ => rfl, fun _ => rfl,
    fun _ => rfl, rfl⟩

theorem ofParts (m : Machine) (o : Opcode) (registers : RegisterFile) (index pc : Int)
    (jumped : Bool) : m.Frame o { m with registers, index, pc, jumped } :=
  { refl m o with }

theorem skipIf (m : Machine) (o : Opcode) (b : Bool) : m.Frame o (m.skipIf b) := by
  cases b with
  | false => exact refl m o
  | true => exact ofParts m o m.registers m.index (m.pc + Instruction.size) m.jumped

theorem skipIfKey (m : Machine) (o : Opcode) (key : UInt8) (down : Bool) :
    m.Frame o (m.skipIfKey key down).machine := by
  by_cases hk : key.toNat < 16
  · rw [skipIfKey_of_lt hk]
    exact skipIf m o _
  · rw [skipIfKey_of_le (by omega)]
    exact refl m o

theorem advance {o : Opcode} {n : Machine} (h : m.Frame o n) : m.Frame o n.advance :=
  { h with }

end Frame

theorem frame_effect (h : m.WellFormed) (i : Instruction) :
    m.Frame i.opcode (m.effect i).machine := by
  cases i with
  | cls => exact { Frame.refl m .cls with screen := fun hn => absurd rfl hn }
  | ret =>
    cases hs : m.stack.frames with
    | nil =>
      rw [effect, returnFromCall_of_nil hs]
      exact .refl m _
    | cons a rest =>
      rw [effect, returnFromCall_of_cons hs]
      exact { Frame.refl m .ret with stack := fun _ hn => absurd rfl hn }
  | call a =>
    by_cases hs : m.stack.capacity ≤ m.stack.size
    · rw [effect, callTo_of_full hs]
      exact .refl m _
    · rw [effect, callTo_of_lt (by omega)]
      exact { Frame.refl m .call with stack := fun hn => absurd rfl hn }
  | skipEqByte x b | skipNeByte x b | skipEq x y | skipNe x y => exact .skipIf m _ _
  | skipDown x | skipUp x => exact .skipIfKey m _ _ _
  | random x mask => exact { Frame.refl m .random with draws := fun hn => absurd rfl hn }
  | draw x y n =>
    by_cases hn : (m.memory.size : Int) < m.index + n.val
    · rw [effect, drawSprite_of_lt _ _ hn]
      exact .refl m _
    · obtain ⟨screen, erased, -, he⟩ :=
        drawSprite_of_le m.registers[x] m.registers[y] h.index_nonneg (Int.not_lt.mp hn)
      rw [effect, he]
      exact { Frame.refl m .draw with screen := fun _ hn => absurd rfl hn }
  | readDelay x =>
    rw [effect, readDelay_eq h.delay]
    exact .ofParts m _ _ m.index m.pc m.jumped
  | awaitKey x => exact { Frame.refl m .awaitKey with waiting := fun hn => absurd rfl hn }
  | setDelay x => exact { Frame.refl m .setDelay with delay := fun hn => absurd rfl hn }
  | setSound x => exact { Frame.refl m .setSound with sound := fun hn => absurd rfl hn }
  | storeDigits x =>
    by_cases hm : (m.memory.size : Int) ≤ m.index + 2
    · rw [effect, storeDigits_of_le _ hm]
      exact .refl m _
    · rw [effect, storeDigits_of_lt _ (by omega)]
      exact { Frame.refl m .storeDigits with memory := fun hn => absurd rfl hn }
  | storeRegisters x =>
    obtain ⟨memory, hs, -⟩ := storeRegisters_upTo h.index_nonneg x
    rw [effect, hs]
    exact { Frame.refl m .storeRegisters with memory := fun _ hn => absurd rfl hn }
  | loadRegisters x =>
    obtain ⟨registers, hs, -⟩ := loadRegisters_upTo h.index_nonneg x
    rw [effect, hs]
    exact .ofParts m _ registers m.index m.pc m.jumped
  | _ => exact .ofParts m _ _ _ _ _

theorem frame_cycle (h : m.WellFormed) (hi : m.instruction? = some i) :
    m.Frame i.opcode m.cycle.machine := by
  cases hf : (m.effect i).fault with
  | some f =>
    rw [cycle_of_fault hi hf]
    exact frame_effect h i
  | none =>
    rw [cycle_of_success hi hf]
    exact (frame_effect h i).advance

theorem machine_cycle_of_none (hi : m.instruction? = none) : m.cycle.machine = m := by
  cases m.course with
  | waits hb hc => rw [hc]; rfl
  | unfetched f hb hf hc => rw [hc]; rfl
  | fails j f hj hf hc =>
    rw [hi] at hj
    cases hj
  | succeeds j hj hf hc =>
    rw [hi] at hj
    cases hj

theorem exists_perform_of_isStimulus (m : Machine) {c : Command} (hc : c.isStimulus) :
    ∃ registers keypad delay sound waiting,
      (m.perform c).machine = { m with registers, keypad, delay, sound, waiting } := by
  cases c with
  | tick =>
    simp only [perform, Outcome.done, tick]
    split <;> exact ⟨_, _, _, _, _, rfl⟩
  | press key =>
    simp only [perform, press]
    split <;> exact ⟨_, _, _, _, _, rfl⟩
  | release key =>
    simp only [perform, release, interrupt]
    split
    · split
      · exact ⟨_, _, _, _, _, rfl⟩
      · split <;> exact ⟨_, _, _, _, _, rfl⟩
    · exact ⟨_, _, _, _, _, rfl⟩
  | _ => cases hc

theorem digitLimit_perform (h : m.WellFormed) (c : Command) :
    (m.perform c).machine.digitLimit = m.digitLimit := by
  have hstimulus : c.isStimulus → (m.perform c).machine.digitLimit = m.digitLimit := by
    intro hc
    obtain ⟨_, _, _, _, _, hm⟩ := m.exists_perform_of_isStimulus hc
    rw [hm]
  cases c with
  | reset | markSeen => rfl
  | load program address =>
    rw [perform, load]
    split <;> rfl
  | cycle =>
    cases hi : m.instruction? with
    | none => rw [perform, machine_cycle_of_none hi]
    | some i => exact (frame_cycle h hi).digitLimit
  | tick | press _ | release _ => exact hstimulus rfl

theorem digitLimit_run (h : m.WellFormed) (cs : List Command) :
    (m.run cs).digitLimit = m.digitLimit := by
  induction cs generalizing m with
  | nil => rfl
  | cons c cs ih => exact (ih (h.perform c)).trans (digitLimit_perform h c)

end Machine

end ChipEight
