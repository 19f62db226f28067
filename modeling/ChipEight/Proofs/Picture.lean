import ChipEight.Proofs.Frame

namespace ChipEight

/-- Whether an instruction clears the screen or draws a sprite of at least one row. -/
def Instruction.redraws : Instruction → Bool
  | .cls => true
  | .draw _ _ n => decide (1 ≤ n.val)
  | _ => false

def Command.lowersFlag : Command → Bool
  | .reset | .load _ _ | .markSeen => true
  | _ => false

theorem Command.eq_cycle_or_isStimulus {c : Command} (hc : c.lowersFlag = false) :
    c = .cycle ∨ c.isStimulus := by
  cases c with
  | cycle => exact .inl rfl
  | tick | press _ | release _ => exact .inr rfl
  | reset | load _ _ | markSeen => cases hc

namespace Machine

def Redraws (m : Machine) : Prop :=
  m.cycle.fault = none ∧ ∃ i, m.instruction? = some i ∧ i.redraws

/-- The picture at the moment at which a command lowers the flag. A reset turns every pixel off
before. -/
def rowsSeen? (m : Machine) : Command → Option (Array (Array Pixel))
  | .reset | .load _ _ => some m.screen.clear.rows
  | .markSeen => some m.screen.rows
  | _ => none

structure FlagTells (m : Machine) (commands : List Command) : Prop where
  since_lowered : ∀ before c after rows, commands = before ++ c :: after →
    (m.run before).rowsSeen? c = some rows → (∀ d ∈ after, d.lowersFlag = false) →
    (m.run commands).screen.dirty = false → (m.run commands).screen.rows = rows
  since_start : (∀ d ∈ commands, d.lowersFlag = false) →
    (m.run commands).screen.dirty = false → (m.run commands).screen.rows = m.screen.rows
  raised_iff : (m.run commands).screen.dirty = false → ∀ c,
    ((m.run commands).perform c).machine.screen.dirty = true ↔
      c = .cycle ∧ (m.run commands).Redraws

variable {m : Machine} {i : Instruction}

theorem screen_effect (h : m.WellFormed) (hf : (m.effect i).fault = none)
    (hr : i.redraws = false) : (m.effect i).machine.screen = m.screen := by
  cases i with
  | cls => cases hr
  | draw x y n =>
    obtain ⟨sprite, screen, erased, hheight, hs, he⟩ := drawSprite_of_success h.index_nonneg hf
    have hn := of_decide_eq_false hr
    rw [Framebuffer.stamp_of_height_eq_zero _ _ _ (by omega)] at hs
    rw [effect, he]
    exact (congrArg Prod.fst hs).symm
  | _ => exact (frame_effect h _).screen (by rintro ⟨⟩) (by rintro ⟨⟩)

theorem dirty_effect (h : m.WellFormed) (hf : (m.effect i).fault = none) (hr : i.redraws = true) :
    (m.effect i).machine.screen.dirty = true := by
  cases i with
  | cls => rfl
  | draw x y n =>
    obtain ⟨sprite, screen, erased, hheight, hs, he⟩ := drawSprite_of_success h.index_nonneg hf
    have hn := of_decide_eq_true hr
    have hdirty := m.screen.dirty_stamp m.registers[x].toNat m.registers[y].toNat
      (show 0 < sprite.height by omega)
    rw [hs] at hdirty
    rw [effect, he]
    exact hdirty
  | _ => cases hr

theorem screen_cycle (h : m.WellFormed) (hr : ¬ m.Redraws) :
    m.cycle.machine.screen = m.screen := by
  cases m.course with
  | waits hb hc => rw [hc]; rfl
  | unfetched f hb hf hc => rw [hc]; rfl
  | fails i f hi hf hc =>
    obtain ⟨memory, registers, hn⟩ := (residue_effect h.index_nonneg h.delay hf).exists_eq
    rw [hc, hn]
  | succeeds i hi hf hc =>
    have hi' : i.redraws = false :=
      Bool.eq_false_iff.mpr fun ht => hr ⟨congrArg Outcome.fault hc, i, hi, ht⟩
    rw [hc]
    exact screen_effect h hf hi'

theorem dirty_cycle (h : m.WellFormed) (hr : m.Redraws) : m.cycle.machine.screen.dirty = true := by
  obtain ⟨hf, i, hi, hr⟩ := hr
  rw [fault_cycle_of_instruction? hi] at hf
  rw [cycle_of_success hi hf]
  exact dirty_effect h hf hr

theorem screen_perform (h : m.WellFormed) {c : Command} (hc : c.lowersFlag = false)
    (hr : ¬ (c = .cycle ∧ m.Redraws)) : (m.perform c).machine.screen = m.screen := by
  rcases Command.eq_cycle_or_isStimulus hc with rfl | hs
  · exact screen_cycle h fun hd => hr ⟨rfl, hd⟩
  · obtain ⟨_, _, _, _, _, hm⟩ := m.exists_perform_of_isStimulus hs
    rw [hm]

theorem screen_perform_of_rowsSeen? {c : Command} {rows : Array (Array Pixel)}
    (hc : m.rowsSeen? c = some rows) :
    (m.perform c).machine.screen.dirty = false ∧ (m.perform c).machine.screen.rows = rows := by
  cases c with
  | reset | markSeen =>
    cases hc
    exact ⟨rfl, rfl⟩
  | load program address =>
    cases hc
    rw [perform, load]
    split <;> exact ⟨rfl, rfl⟩
  | _ => cases hc

theorem rowsSeen?_of_lowersFlag {c : Command} (hc : c.lowersFlag = true) :
    ∃ rows, m.rowsSeen? c = some rows := by
  cases c with
  | reset | load _ _ | markSeen => exact ⟨_, rfl⟩
  | _ => cases hc

theorem dirty_perform_iff (h : m.WellFormed) (hd : m.screen.dirty = false) (c : Command) :
    (m.perform c).machine.screen.dirty = true ↔ c = .cycle ∧ m.Redraws := by
  constructor
  · intro hdirty
    refine Classical.byContradiction fun hr => ?_
    cases hc : c.lowersFlag with
    | true =>
      obtain ⟨rows, hrows⟩ := m.rowsSeen?_of_lowersFlag hc
      rw [(screen_perform_of_rowsSeen? hrows).1] at hdirty
      cases hdirty
    | false =>
      rw [screen_perform h hc hr, hd] at hdirty
      cases hdirty
  · rintro ⟨rfl, hr⟩
    exact dirty_cycle h hr

theorem screen_run (h : m.WellFormed) {cs : List Command} (hcs : ∀ c ∈ cs, c.lowersFlag = false)
    (hd : (m.run cs).screen.dirty = false) : (m.run cs).screen = m.screen := by
  induction cs generalizing m with
  | nil => rfl
  | cons c cs ih =>
    -- a flag that is down at the end was down all the time, since nothing has lowered it
    have hrest := ih (h.perform c) (fun d hm => hcs d (List.mem_cons_of_mem c hm)) hd
    have hdown : (m.perform c).machine.screen.dirty = false := hrest ▸ hd
    have hr : ¬ (c = .cycle ∧ m.Redraws) := by
      rintro ⟨rfl, hr⟩
      have hup : (m.perform .cycle).machine.screen.dirty = true := dirty_cycle h hr
      rw [hup] at hdown
      cases hdown
    exact hrest.trans (screen_perform h (hcs c List.mem_cons_self) hr)

theorem flagTells (h : m.WellFormed) (commands : List Command) : m.FlagTells commands where
  since_lowered before c after rows he hc hafter hd := by
    have hb := (h.run before).perform c
    rw [he, run_append, run_cons] at hd ⊢
    rw [screen_run hb hafter hd]
    exact (screen_perform_of_rowsSeen? hc).2
  since_start hcs hd := congrArg Framebuffer.rows (screen_run h hcs hd)
  raised_iff hd c := dirty_perform_iff (h.run commands) hd c

/-- Whatever the host does to a machine, the flag never hides from it a change of the picture. -/
theorem flag_tells_of_history (stream : Nat → UInt8) (commands : List Command) :
    (fresh stream).FlagTells commands :=
  flagTells (.fresh stream) commands

end Machine

end ChipEight
