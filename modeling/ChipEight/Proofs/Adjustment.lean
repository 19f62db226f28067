import ChipEight.Proofs.Course

namespace ChipEight

structure Adjustment where
  keypad : Keypad → Keypad := id
  timer : Int → Int := id
  draws : Draws → Draws := id

def Machine.adjust (m : Machine) (u : Adjustment) : Machine :=
  { m with
    keypad := u.keypad m.keypad
    delay := u.timer m.delay
    sound := u.timer m.sound
    draws := u.draws m.draws }

def Outcome.adjust (o : Outcome) (u : Adjustment) : Outcome :=
  { o with machine := o.machine.adjust u }

/-- Whether an instruction neither reads nor writes what is adjusted. Of the keypad, an instruction
reads a single key. -/
def Adjustment.Spares (u : Adjustment) (m : Machine) : Instruction → Prop
  | .skipDown x | .skipUp x => ∀ k : Key, k.val = m.registers[x].toNat →
      (u.keypad m.keypad).isDown k = m.keypad.isDown k
  | .readDelay _ | .setDelay _ | .setSound _ => u.timer = id
  | .random _ _ => u.draws = id
  | _ => True

namespace Machine

section

variable (m : Machine) (u : Adjustment)

theorem skipIf_adjust (b : Bool) : (m.adjust u).skipIf b = (m.skipIf b).adjust u := by
  cases b <;> rfl

theorem returnFromCall_adjust : (m.adjust u).returnFromCall = m.returnFromCall.adjust u := by
  simp only [returnFromCall, adjust]
  split <;> rfl

theorem callTo_adjust (a : Int) : (m.adjust u).callTo a = (m.callTo a).adjust u := by
  simp only [callTo, adjust]
  split <;> rfl

theorem drawSprite_adjust (x y : UInt8) (n : Nat) :
    (m.adjust u).drawSprite x y n = (m.drawSprite x y n).adjust u := by
  simp only [drawSprite, adjust]
  rcases m.memory.readSprite m.digitLimit m.index n with f | ⟨_ | sprite, events⟩
  · rfl
  · rfl
  · rcases m.screen.stamp x.toNat y.toNat sprite with ⟨screen, erased⟩
    rfl

theorem storeDigits_adjust (b : UInt8) :
    (m.adjust u).storeDigits b = (m.storeDigits b).adjust u := by
  by_cases hm : (m.memory.size : Int) ≤ m.index + 2
  · rw [storeDigits_of_le b hm]
    exact storeDigits_of_le (m := m.adjust u) b hm
  · have hlt := Int.not_le.mp hm
    rw [storeDigits_of_lt b hlt]
    exact storeDigits_of_lt (m := m.adjust u) b hlt

theorem storeRegisters_adjust (rs : List Register) :
    (m.adjust u).storeRegisters rs = (m.storeRegisters rs).adjust u := by
  induction rs generalizing m with
  | nil => rfl
  | cons r rs ih =>
    by_cases hm : (m.memory.size : Int) ≤ m.index + r.val
    · have hu : ((m.adjust u).memory.size : Int) ≤ (m.adjust u).index + r.val := hm
      simp only [storeRegisters, if_pos hm, if_pos hu]
      rfl
    · have hu : ¬ ((m.adjust u).memory.size : Int) ≤ (m.adjust u).index + r.val := hm
      have hput : (m.adjust u).memory.put ((m.adjust u).index + r.val)
          (m.adjust u).registers[r] = m.memory.put (m.index + r.val) m.registers[r] := rfl
      simp only [storeRegisters, if_neg hm, if_neg hu, hput]
      split
      · exact ih { m with memory := _ }
      · rfl

theorem loadRegisters_adjust (rs : List Register) :
    (m.adjust u).loadRegisters rs = (m.loadRegisters rs).adjust u := by
  induction rs generalizing m with
  | nil => rfl
  | cons r rs ih =>
    by_cases hm : (m.memory.size : Int) ≤ m.index + r.val
    · have hu : ((m.adjust u).memory.size : Int) ≤ (m.adjust u).index + r.val := hm
      simp only [loadRegisters, if_pos hm, if_pos hu]
      rfl
    · have hu : ¬ ((m.adjust u).memory.size : Int) ≤ (m.adjust u).index + r.val := hm
      have hget : (m.adjust u).memory.get ((m.adjust u).index + r.val) =
          m.memory.get (m.index + r.val) := rfl
      simp only [loadRegisters, if_neg hm, if_neg hu, hget]
      split
      · exact ih (m.setRegister r _)
      · rfl

end

variable {m : Machine} {u : Adjustment} {i : Instruction}

theorem skipIfKey_adjust {key : UInt8} (down : Bool)
    (hu : ∀ k : Key, k.val = key.toNat → (u.keypad m.keypad).isDown k = m.keypad.isDown k) :
    (m.adjust u).skipIfKey key down = (m.skipIfKey key down).adjust u := by
  by_cases hk : key.toNat < 16
  · have hdown : (m.adjust u).keypad.isDown ⟨key.toNat, hk⟩ = m.keypad.isDown ⟨key.toNat, hk⟩ :=
      hu _ rfl
    rw [skipIfKey_of_lt hk, skipIfKey_of_lt hk, hdown, skipIf_adjust]
    rfl
  · rw [skipIfKey_of_le (by omega), skipIfKey_of_le (by omega)]
    rfl

theorem adjust_of_timer (hu : u.timer = id) : m.adjust u =
    { m with keypad := u.keypad m.keypad, draws := u.draws m.draws } := by
  rw [adjust, hu]
  rfl

theorem readDelay_adjust (hu : u.timer = id) (x : Register) :
    (m.adjust u).readDelay x = (m.readDelay x).adjust u := by
  simp only [readDelay, Outcome.adjust, adjust_of_timer hu]
  split <;> rfl

theorem effect_adjust (hu : u.Spares m i) : (m.adjust u).effect i = (m.effect i).adjust u := by
  cases i with
  | ret => exact returnFromCall_adjust m u
  | call a => exact callTo_adjust m u _
  | skipEqByte x b | skipNeByte x b | skipEq x y | skipNe x y =>
    exact congrArg Outcome.done (skipIf_adjust m u _)
  | random x mask =>
    have hd : u.draws = id := hu
    simp only [effect, Outcome.done, Outcome.adjust, adjust, hd]
    rfl
  | draw x y n => exact drawSprite_adjust m u _ _ _
  | skipDown x | skipUp x => exact skipIfKey_adjust _ hu
  | readDelay x => exact readDelay_adjust hu x
  | setDelay x | setSound x =>
    simp only [effect, Outcome.done, Outcome.adjust, adjust_of_timer hu]
  | storeDigits x => exact storeDigits_adjust m u _
  | storeRegisters x => exact storeRegisters_adjust m u _
  | loadRegisters x => exact loadRegisters_adjust m u _
  | _ => rfl

theorem cycle_adjust (hu : ∀ i, m.instruction? = some i → u.Spares m i) :
    (m.adjust u).cycle = m.cycle.adjust u := by
  cases m.course with
  | waits hb hc =>
    rw [hc]
    exact cycle_of_isBlocked (m := m.adjust u) hb
  | unfetched f hb hf hc =>
    rw [hc]
    exact cycle_of_unfetched (m := m.adjust u) hb hf
  | fails i f hi hf hc =>
    have he := effect_adjust (hu i hi)
    have hfault : ((m.adjust u).effect i).fault = some f := (congrArg Outcome.fault he).trans hf
    rw [hc, cycle_of_fault (m := m.adjust u) hi hfault, he]
    rfl
  | succeeds i hi hf hc =>
    have he := effect_adjust (hu i hi)
    have hfault : ((m.adjust u).effect i).fault = none := (congrArg Outcome.fault he).trans hf
    rw [hc, cycle_of_success (m := m.adjust u) hi hfault, he]
    rfl

end Machine

end ChipEight
