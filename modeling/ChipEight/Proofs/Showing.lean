import ChipEight.Proofs.Invocation
import ChipEight.Proofs.Loading
import ChipEight.Proofs.Picture
import ChipEight.Proofs.Screenless

namespace ChipEight

def Event.redraws : Event → Bool
  | .executed _ i => i.redraws
  | _ => false

def Pass.redraws {Surface : Type} (p : Pass Surface) : Bool := p.events.any Event.redraws

structure Outcome.TellsRedraws (m : Machine) (o : Outcome) : Prop where
  dirty : o.machine.screen.dirty = (m.screen.dirty || o.events.any Event.redraws)
  screen : o.events.any Event.redraws = false → o.machine.screen = m.screen

section

variable {Surface Refusal : Type} (d : Display Surface Refusal) (scale : Int) (w : Surface)

/-- The window `v` has the places of `w` and shows a picture there. -/
def Display.Renders (s : Framebuffer) (v : Surface) : Prop :=
  ∀ px py, d.inkAt? v px py = (d.inkAt? w px py).map fun _ => s.inkOver scale px py

/-- If a window of the size that was asked for has been opened, the picture can be seen pixel by
pixel. -/
structure Display.Shows (s : Framebuffer) (v : Surface) : Prop where
  renders : d.Renders scale w s v
  enlarged : 1 ≤ scale → d.HasSides w (64 * scale) (32 * scale) →
    d.Enlarges v s scale.toNat ∧ (d.lit v).ncard = scale.toNat ^ 2 * s.onCount

/-- The window is up to date at the end of a pass. If the machine was stopped, the picture is that
of the machine before. -/
structure Pass.KeepsUp (p : Pass Surface) : Prop where
  completed : p.fault = none → d.Shows scale w p.after.screen p.window ∧ p.shown = p.redraws
  stopped : p.fault ≠ none → d.Shows scale w p.before.screen p.window ∧ p.shown = false

/-- Passes from a machine on, each from where the one before has ended. Only the last one can be
stopped. -/
inductive KeepUp : Machine → List (Pass Surface) → Prop where
  | last {m : Machine} {p : Pass Surface} (before : p.before = m) (keeps : p.KeepsUp d scale w) :
    KeepUp m [p]
  | next {m : Machine} {p : Pass Surface} {ps : List (Pass Surface)} (before : p.before = m)
    (keeps : p.KeepsUp d scale w) (completed : p.fault = none) (rest : KeepUp p.after ps) :
    KeepUp m (p :: ps)

variable {d scale w}

theorem KeepUp.keepsUp_of_mem {m : Machine} {ps : List (Pass Surface)} (h : KeepUp d scale w m ps)
    {p : Pass Surface} (hp : p ∈ ps) : p.KeepsUp d scale w := by
  induction h with
  | last before keeps =>
    rw [List.mem_singleton.mp hp]
    exact keeps
  | next before keeps completed rest ih =>
    rcases List.mem_cons.mp hp with rfl | hp
    · exact keeps
    · exact ih hp

namespace Display

variable {s t : Framebuffer} {v : Surface}

theorem Renders.render (hd : d.Exact scale) (h : d.Renders scale w s v)
    (ht : ∀ cell ∈ t.litCells, cell.1 < 64 ∧ cell.2 < 32) :
    d.Renders scale w t (d.render scale v t) := by
  intro px py
  rw [inkAt?_render hd ht, h px py, Option.map_map]
  rfl

theorem renders_blank (hd : d.Exact scale) (w : Surface) (width height : Int) :
    d.Renders scale w (.blank width height) (d.filled w .background) := by
  intro px py
  rw [hd.filled, Framebuffer.inkOver, Framebuffer.litCells_blank]
  simp

theorem Renders.hasSides (h : d.Renders scale w s v) {width height : Int}
    (hw : d.HasSides w width height) : d.HasSides v width height := by
  intro px py
  rw [h px py, Option.isSome_map]
  exact hw px py

theorem Renders.enlarges {k : Nat} (h : d.Renders k w s v)
    (hw : d.HasSides w (s.width.toNat * k : Nat) (s.height.toNat * k : Nat)) :
    d.Enlarges v s k where
  sides := h.hasSides hw
  inkAt? x hx y hy dx hdx dy hdy := by
    have hplace : ∀ {a n c : Nat}, a < n → c < k → a * k + c < n * k := fun {a n c} ha hc =>
      calc a * k + c
        _ < (a + 1) * k := by rw [Nat.succ_mul]; exact Nat.add_lt_add_left hc _
        _ ≤ n * k := Nat.mul_le_mul_right k ha
    have hsome := (hw (x * k + dx : Nat) (y * k + dy : Nat)).mpr
      ⟨⟨Int.natCast_nonneg _, Int.ofNat_lt.mpr (hplace hx hdx)⟩,
        Int.natCast_nonneg _, Int.ofNat_lt.mpr (hplace hy hdy)⟩
    obtain ⟨ink, hink⟩ := Option.isSome_iff_exists.mp hsome
    rw [h, hink, Option.map_some, Framebuffer.inkOver_eq hx hy hdx hdy]

end Display

namespace Machine

variable {m : Machine} {v : Surface}

theorem lt_of_mem_litCells (h : m.WellFormed) :
    ∀ cell ∈ m.screen.litCells, cell.1 < 64 ∧ cell.2 < 32 := by
  intro cell hcell
  have hlt := Framebuffer.lt_of_mem_litCells h.screen_sized hcell
  rwa [h.screen_width, h.screen_height] at hlt

theorem shows_screen (h : m.WellFormed) (hv : d.Renders scale w m.screen v) :
    d.Shows scale w m.screen v := by
  refine ⟨hv, fun hlo hsides => ?_⟩
  obtain ⟨k, rfl⟩ := Int.eq_ofNat_of_zero_le (show 0 ≤ scale by omega)
  have henlarges : d.Enlarges v m.screen k := by
    refine hv.enlarges ?_
    rw [h.screen_width, h.screen_height]
    exact_mod_cast hsides
  exact ⟨henlarges, henlarges.ncard_lit h.screen_sized⟩

end Machine

end

namespace Machine

variable {m : Machine} {i : Instruction}

theorem events_effect_of_success (h : m.WellFormed) (hf : (m.effect i).fault = none) :
    (m.effect i).events = [] := by
  cases i with
  | ret =>
    cases hs : m.stack.frames with
    | nil =>
      rw [effect, returnFromCall_of_nil hs]
      rfl
    | cons a rest =>
      rw [effect, returnFromCall_of_cons hs]
      rfl
  | call a =>
    by_cases hs : m.stack.capacity ≤ m.stack.size
    · rw [effect, callTo_of_full hs]
      rfl
    · rw [effect, callTo_of_lt (Int.not_le.mp hs)]
      rfl
  | draw x y n =>
    obtain ⟨_, screen, erased, -, -, he⟩ := drawSprite_of_success h.index_nonneg hf
    rw [effect, he]
    rfl
  | skipDown x | skipUp x =>
    by_cases hk : m.registers[x].toNat < 16
    · rw [effect, skipIfKey_of_lt hk]
      rfl
    · rw [effect, skipIfKey_of_le (Nat.le_of_not_lt hk)]
      rfl
  | readDelay x =>
    rw [effect, readDelay_eq h.delay]
    rfl
  | storeDigits x =>
    simp only [effect, storeDigits]
    split <;> rfl
  | storeRegisters x =>
    obtain ⟨memory, hs, -⟩ := storeRegisters_upTo h.index_nonneg x
    rw [effect, hs]
  | loadRegisters x =>
    obtain ⟨registers, hs, -⟩ := loadRegisters_upTo h.index_nonneg x
    rw [effect, hs]
  | _ => rfl

theorem events_cycle_iff (h : m.WellFormed) (hf : m.cycle.fault = none) :
    m.cycle.events.any Event.redraws = true ↔ m.Redraws := by
  cases m.course with
  | waits hb hc =>
    have hi : m.instruction? = none := by rw [instruction?, if_pos hb]
    rw [hc, Redraws, hi]
    simp [Outcome.done]
  | unfetched f hb hfetch hc | fails i f hi hfault hc =>
    rw [hc] at hf
    cases hf
  | succeeds i hi hs hc =>
    have hevents : m.cycle.events = [.executed m.pc i] := by
      rw [hc, events_effect_of_success h hs]
    simp [hevents, Redraws, hf, hi, Event.redraws]

theorem events_perform_of_isStimulus {c : Command} (hc : c.isStimulus) :
    (m.perform c).events.any Event.redraws = false := by
  cases c with
  | tick => rfl
  | press key =>
    rw [perform, press]
    split <;> rfl
  | release key =>
    rw [perform, release]
    split
    · rw [interrupt]
      split
      · rfl
      · split <;> rfl
    · rfl
  | _ => cases hc

theorem tellsRedraws_perform (h : m.WellFormed) {c : Command} (hc : c.lowersFlag = false)
    (hf : (m.perform c).fault = none) : (m.perform c).TellsRedraws m := by
  have hiff : (m.perform c).events.any Event.redraws = true ↔ c = .cycle ∧ m.Redraws := by
    rcases Command.eq_cycle_or_isStimulus hc with rfl | hs
    · exact (events_cycle_iff h hf).trans (by simp)
    · simp only [events_perform_of_isStimulus hs, Bool.false_eq_true, false_iff]
      rintro ⟨rfl, -⟩
      cases hs
  by_cases hr : c = .cycle ∧ m.Redraws
  · have hd : (m.perform c).machine.screen.dirty = true := by
      rw [hr.1]
      exact dirty_cycle h hr.2
    have he := hiff.mpr hr
    exact ⟨by rw [hd, he, Bool.or_true], fun hn => absurd he (Bool.eq_false_iff.mp hn)⟩
  · have hs := screen_perform h hc hr
    have he := Bool.eq_false_iff.mpr fun ht => hr (hiff.mp ht)
    exact ⟨by rw [hs, he, Bool.or_false], fun _ => hs⟩

theorem tellsRedraws_performEach (h : m.WellFormed) {cs : List Command}
    (hcs : ∀ c ∈ cs, c.lowersFlag = false) (hf : (m.performEach cs).fault = none) :
    (m.performEach cs).TellsRedraws m := by
  induction cs generalizing m with
  | nil => exact ⟨(Bool.or_false _).symm, fun _ => rfl⟩
  | cons c cs ih =>
    rw [performEach] at hf ⊢
    cases hc : (m.perform c).fault with
    | some f =>
      rw [Outcome.andThen_of_some hc, hc] at hf
      cases hf
    | none =>
      rw [Outcome.andThen_of_none hc] at hf ⊢
      have hfirst := tellsRedraws_perform h (hcs c List.mem_cons_self) hc
      have hrest := ih (h.perform c) (fun d hd => hcs d (List.mem_cons_of_mem c hd)) hf
      constructor
      · simp only [Outcome.after, List.any_append]
        rw [hrest.dirty, hfirst.dirty, Bool.or_assoc]
      · simp only [Outcome.after, List.any_append, Bool.or_eq_false_iff]
        exact fun hr => (hrest.screen hr.2).trans (hfirst.screen hr.1)

theorem screen_tick (m : Machine) : m.tick.screen = m.screen := by
  rw [tick]
  split <;> rfl

end Machine

namespace HostLoop

variable {Surface Refusal : Type} {d : Display Surface Refusal} {scale : Int} {w v : Surface}
variable {m : Machine}

theorem lowersFlag_of_mem_forwarded {batch : List Input} {n : Nat} {c : Command}
    (hc : c ∈ forwarded batch ++ List.replicate n .cycle) : c.lowersFlag = false := by
  rcases List.mem_append.mp hc with hc | hc
  · obtain ⟨k, rfl | rfl⟩ := eq_press_or_release_of_mem_forwarded hc <;> rfl
  · rw [(List.mem_replicate.mp hc).2]
    rfl

theorem pass_of_success (hd : d.Exact scale) (h : m.WellFormed) (hdown : m.screen.dirty = false)
    (hv : d.Renders scale w m.screen v) {n : Nat} {batch : List Input}
    (hf : (ran n batch m).fault = none) :
    let p := Session.pass d scale n batch m v
    p.fault = none ∧ p.after.WellFormed ∧ p.after.screen.dirty = false ∧
      d.Renders scale w p.after.screen p.window ∧ p.shown = p.redraws := by
  have hran := ran_eq_performEach n batch m
  obtain ⟨hdirty, hsame⟩ := Machine.tellsRedraws_performEach h
    (fun c hc => lowersFlag_of_mem_forwarded hc) (hran ▸ hf)
  have hwell := h.performEach (forwarded batch ++ List.replicate n .cycle)
  rw [← hran] at hdirty hsame hwell
  rw [hdown, Bool.false_or, ← Machine.screen_tick] at hdirty
  rw [pass_of_none d scale hf]
  refine ⟨rfl, hwell.tick.markSeen, rfl, ?_, hdirty⟩
  -- either the window is rendered anew, or the picture is the one that it holds
  cases hr : (ran n batch m).events.any Event.redraws with
  | true =>
    rw [hr] at hdirty
    simp only [hdirty, if_true]
    exact hv.render hd (Machine.lt_of_mem_litCells hwell.tick.markSeen)
  | false =>
    rw [hr] at hdirty
    simp only [hdirty, Bool.false_eq_true, if_false]
    rw [← hsame hr, ← Machine.screen_tick] at hv
    exact hv

theorem before_pass (n : Nat) (batch : List Input) (m : Machine) (v : Surface) :
    (Session.pass d scale n batch m v).before = m := by
  cases hf : (ran n batch m).fault with
  | some f => rw [pass_of_some d scale hf]
  | none => rw [pass_of_none d scale hf]

theorem fault_pass (n : Nat) (batch : List Input) (m : Machine) (v : Surface) :
    (Session.pass d scale n batch m v).fault = (ran n batch m).fault := by
  cases hf : (ran n batch m).fault with
  | some f => rw [pass_of_some d scale hf]
  | none => rw [pass_of_none d scale hf]

theorem pass_keepsUp (hd : d.Exact scale) (h : m.WellFormed) (hdown : m.screen.dirty = false)
    (hv : d.Renders scale w m.screen v) (n : Nat) (batch : List Input) :
    (Session.pass d scale n batch m v).KeepsUp d scale w := by
  cases hf : (ran n batch m).fault with
  | some f =>
    rw [pass_of_some d scale hf]
    exact ⟨nofun, fun _ => ⟨Machine.shows_screen h hv, rfl⟩⟩
  | none =>
    obtain ⟨hnone, hwell, -, hwindow, hshown⟩ := pass_of_success hd h hdown hv hf
    exact ⟨fun _ => ⟨Machine.shows_screen hwell hwindow, hshown⟩, fun hc => absurd hnone hc⟩

/-- As long as passes start with the flag down and the picture in the window, they end so. -/
theorem keepUp_passes (hd : d.Exact scale) (h : m.WellFormed) (hdown : m.screen.dirty = false)
    (hv : d.Renders scale w m.screen v) (n : Nat) (batches : List (List Input)) :
    KeepUp d scale w m (Session.passes d scale n batches m v) := by
  induction batches generalizing m v with
  | nil => exact .last (before_pass ..) (pass_keepsUp hd h hdown hv n [.quit])
  | cons batch rest ih =>
    have hkeeps := pass_keepsUp hd h hdown hv n batch
    rw [Session.passes]
    by_cases hstop : ((Session.pass d scale n batch m v).fault.isSome ||
        batch.any Input.isQuit) = true
    · rw [if_pos hstop]
      exact .last (before_pass ..) hkeeps
    · rw [if_neg hstop]
      have hnone : (Session.pass d scale n batch m v).fault = none := by
        simp only [Bool.or_eq_true, not_or, Bool.not_eq_true, Option.isSome_eq_false_iff,
          Option.isNone_iff_eq_none] at hstop
        exact hstop.1
      have hran := (fault_pass n batch m v).symm.trans hnone
      obtain ⟨-, hwell, hdown', hwindow, -⟩ := pass_of_success hd h hdown hv hran
      exact .next (before_pass ..) hkeeps hnone (ih hwell hdown' hwindow)

theorem screen_loading (h : m.WellFormed) (rom : List UInt8) :
    (loading m rom).machine.screen = .blank 64 32 := by
  obtain ⟨memory, -, -, hm⟩ :=
    Machine.exists_machine_load h (rom.map fun b => (b.toNat : Int)) Memory.programStart
  rw [loading, hm]
  rfl

theorem keepUp_play (hd : d.Exact scale) (h : m.WellFormed) {rom : List UInt8}
    (hr : rom.length ≤ 3584) (cpuHz : Int) (batches : List (List Input)) (level : Level) :
    KeepUp d scale w (loading m rom).machine (Session.play d scale cpuHz batches level
      (loading m rom) (d.filled w .background)).passes := by
  have hscreen := screen_loading h rom
  refine keepUp_passes hd (loading_of_fits h hr).2 (congrArg Framebuffer.dirty hscreen) ?_ _ batches
  rw [hscreen]
  exact Display.renders_blank hd w 64 32

namespace Invocation

/-- The window shows no old picture: neither at the end of a pass nor when the machine has stopped.
If the display has opened a window of the size that was asked for, every pixel has a square of its
own. -/
theorem run_keepsUp (i : Invocation) (hd : d.Exact i.scale) (draws : Nat → UInt8)
    (batches : List (List Input)) :
    match d.titleRefusal? (Session.title i.file) with
    | some _ => (i.run d draws batches).passes = []
    | none =>
      if 3584 < i.rom.length then (i.run d draws batches).passes = []
      else
        match d.opened (64 * i.scale) (32 * i.scale) with
        | .error _ => (i.run d draws batches).passes = []
        | .ok w => KeepUp d i.scale w (loading (.fresh draws) i.rom).machine
            (i.run d draws batches).passes := by
  have h : (Machine.fresh draws).WellFormed := .fresh draws
  cases ht : d.titleRefusal? (Session.title i.file) with
  | some r =>
    rw [run_of_untitled d i draws batches ht]
    rfl
  | none =>
    rw [run_eq_boot d i draws batches ht]
    simp only []
    split
    · next hr => exact (boot_of_long d _ batches _ h hr).1
    · next hr =>
      have hfit := Nat.le_of_not_lt hr
      cases hw : d.opened (64 * i.scale) (32 * i.scale) with
      | error r => exact (boot_of_noWindow d batches _ h hfit rfl hw).1
      | ok w =>
        rw [boot_of_window d batches _ h hfit rfl rfl hw]
        exact keepUp_play hd h hfit i.cpuHz batches _

end Invocation

def bar : Framebuffer := ((Framebuffer.blank 64 32).stamp 0 0 ⟨#[0xF0]⟩).1

theorem litCells_bar : bar.markSeen.litCells = [(0, 0), (1, 0), (2, 0), (3, 0)] := by
  decide +kernel

theorem items_of_pos {memory : Memory} (h : 0 < memory.size) :
    Stretch.items memory.bytes 0 (0 + (1 : Nat)) = #[memory.byteAt 0] := by
  have hsize : 0 < memory.bytes.size := h
  have hone : (Stretch.items memory.bytes 0 (0 + (1 : Nat))).size = 1 :=
    Stretch.size_items (Int.le_refl 0) (by omega)
  refine Array.ext hone fun i hi _ => ?_
  obtain rfl : i = 0 := by omega
  simp [Stretch.items, Stretch.boundary, Memory.byteAt, hsize]

theorem cycle_of_draw {m : Machine} (hi : m.instruction? = some (.draw 0 0 1))
    (hindex : m.index = 0) (hmemory : 0 < m.memory.size) (hglyph : m.memory.byteAt 0 = 0xF0)
    (hscreen : m.screen = .blank 64 32) (hzero : m.registers[(0 : Register)] = 0) :
    m.cycle.fault = none ∧ m.cycle.machine.screen = bar := by
  obtain ⟨screen, erased, hs, he⟩ := Machine.drawSprite_of_le m.registers[(0 : Register)]
    m.registers[(0 : Register)] (n := 1) (Int.le_of_eq hindex.symm) (by omega)
  rw [hindex, hscreen, hzero, items_of_pos hmemory, hglyph] at hs
  have heffect : m.effect (.draw 0 0 1) = .done ({ m with screen }.setFlag erased) := he
  rw [Machine.cycle_of_success hi (by rw [heffect]; rfl), heffect]
  exact ⟨rfl, (congrArg Prod.fst hs).symm⟩

theorem pass_of_cycle (scale : Int) (v : Surface) (hf : m.cycle.fault = none)
    (hdirty : m.cycle.machine.screen.dirty = true) :
    let p := Session.pass d scale 1 [.quit] m v
    p.fault = none ∧ p.after.screen = m.cycle.machine.screen.markSeen ∧
      p.window = d.render scale v p.after.screen := by
  have hran : ran 1 [.quit] m = .after (.done m.cycle.machine) m.cycle.events :=
    (ran_eq_performEach 1 [.quit] m).trans (Outcome.andThen_of_none hf _)
  have hnone : (ran 1 [.quit] m).fault = none := congrArg Outcome.fault hran
  have hscreen : (ran 1 [.quit] m).machine.tick.screen = m.cycle.machine.screen := by
    rw [Machine.screen_tick, hran]
    rfl
  rw [pass_of_none d scale hnone]
  refine ⟨rfl, congrArg Framebuffer.markSeen hscreen, ?_⟩
  simp only [hscreen, hdirty, if_true]
  exact congrArg (d.render scale v ·.markSeen) hscreen.symm

def drawingBar (digits : String) (scale : Int) (accepted : CommandLine.parse false
    ["-f", "rom", "--cpu-hz", "60", "--scale", digits] =
      .ok ⟨.given "rom", .given 60, .given scale, none, false⟩) : Invocation where
  debug := false
  arguments := ["-f", "rom", "--cpu-hz", "60", "--scale", digits]
  read := fun _ => .ok [0xD0, 0x01]
  file := "rom"
  cpuHz := 60
  scale := scale
  seed := none
  logged := false
  rom := [0xD0, 0x01]
  accepted := accepted
  holds := rfl

theorem passes_drawingBar (draws : Nat → UInt8) (digits : String) (scale : Int) (accepted)
    (ht : d.titleRefusal? (Session.title "rom") = none)
    (hw : d.opened (64 * scale) (32 * scale) = .ok w) :
    ∃ p, ((drawingBar digits scale accepted).run d draws []).passes = [p] ∧ p.fault = none ∧
      p.after.screen = bar.markSeen ∧
      p.window = d.render scale (d.filled w .background) bar.markSeen := by
  have h : (Machine.fresh draws).WellFormed := .fresh draws
  have hf : loadFault? [0xD0, 0x01] 0x200 = none := by decide
  have hd : Instruction.decode (Instruction.wordOf (Memory.byteOf 0xD0) (Memory.byteOf 0x01)) =
      .ok (.draw 0 0 1) := rfl
  have hi := Machine.instruction?_load h hf hd
  obtain ⟨memory, hsize, hbyte, hm⟩ := Machine.exists_machine_load h [0xD0, 0x01] 0x200
  rw [if_pos hf] at hm
  have hmemory : 0 < memory.size := by omega
  have hrom : [(0xD0 : UInt8), 0x01].map (fun b => (b.toNat : Int)) = [0xD0, 0x01] := rfl
  have hloading : (loading (.fresh draws) [0xD0, 0x01]).machine =
      (Machine.fresh draws).booted memory 0x200 := by
    rw [loading, hrom, Memory.programStart, hm]
  rw [hm] at hi
  obtain ⟨hcycle, hbar⟩ :=
    cycle_of_draw hi rfl hmemory (hbyte 0) rfl (RegisterFile.getElem_zero 0)
  have hdirty : bar.dirty = true := Framebuffer.dirty_stamp _ _ _ (by decide)
  obtain ⟨hnone, hscreen, hwindow⟩ := pass_of_cycle (d := d) scale
    (d.filled w .background) hcycle (hbar ▸ hdirty)
  rw [hbar] at hscreen
  rw [hscreen] at hwindow
  refine ⟨_, ?_, hnone, hscreen, hwindow⟩
  have hlong : (drawingBar digits scale accepted).rom.length ≤ 3584 :=
    show 2 ≤ 3584 by decide
  rw [Invocation.run_eq_boot d _ _ _ ht, boot_of_window d [] _ h hlong rfl rfl hw, ← hloading]
  rfl

theorem lt_of_mem_bar : ∀ cell ∈ bar.markSeen.litCells, cell.1 < 4 ∧ cell.2 = 0 := by
  rw [litCells_bar]
  decide

theorem isOn_bar : (bar.markSeen.pixelAt 1 0).isOn = true := by
  have hlit : ((1, 0) : Nat × Nat) ∈ bar.markSeen.litCells := by
    rw [litCells_bar]
    decide
  exact (Framebuffer.at?_eq_some_on_iff (s := bar.markSeen) (by decide) (by decide)).mp
    (Framebuffer.mem_litCells.mp hlit)

theorem onCount_bar : bar.markSeen.onCount = 4 := by
  rw [← Framebuffer.length_litCells, litCells_bar]
  rfl

theorem titleRefusal?_rom : Window.screenless.titleRefusal? (Session.title "rom") = none := by
  decide

theorem keepsUp_drawingBar : Window.screenless.Exact 15 ∧
    ∃ p ∈ ((drawingBar "15" 15 rfl).run Window.screenless (fun _ => 0) []).passes,
      p.fault = none ∧ Window.screenless.Enlarges p.window bar.markSeen 15 ∧
        (Window.screenless.lit p.window).ncard = 15 ^ 2 * 4 := by
  have hd : Window.screenless.Exact 15 := Window.screenless_exact (by decide) (by decide)
  have hw : Window.screenless.opened (64 * 15) (32 * 15) = .ok (.plain 960 480 .background) := rfl
  have hkeep := (drawingBar "15" 15 rfl).run_keepsUp hd (fun _ => 0) []
  obtain ⟨p, hp, hnone, hscreen, -⟩ :=
    passes_drawingBar (fun _ => 0) "15" 15 rfl titleRefusal?_rom hw
  have hone : p ∈ ((drawingBar "15" 15 rfl).run Window.screenless (fun _ => 0) []).passes := by
    rw [hp]
    exact List.mem_singleton_self p
  rw [show (drawingBar "15" 15 rfl).file = "rom" from rfl, titleRefusal?_rom] at hkeep
  simp only [] at hkeep
  rw [if_neg (by decide), show (drawingBar "15" 15 rfl).scale = 15 from rfl, hw] at hkeep
  have hshows := ((hkeep.keepsUp_of_mem hone).completed hnone).1
  obtain ⟨henlarges, hcount⟩ := hshows.enlarged (by decide) (Window.hasSides _)
  rw [hscreen] at henlarges hcount
  rw [onCount_bar] at hcount
  exact ⟨hd, p, hone, hnone, henlarges, hcount⟩

/-- A window of another size than the one that was asked for has no room for the squares, although
each of them is painted where it was asked for. -/
theorem not_enlarged_drawingBar :
    let d := Window.screenless
    let i := drawingBar "134217729" 134217729 rfl
    (1 ≤ i.scale ∧ i.rom.length ≤ 3584) ∧
    ∃ p ∈ (i.run d (fun _ => 0) []).passes, p.fault = none ∧
      (∀ cell ∈ p.after.screen.litCells,
        d.PaintsExactly (cell.1 * i.scale) (cell.2 * i.scale) i.scale i.scale) ∧
      (p.after.screen.pixelAt 1 0).isOn = true ∧
      d.inkAt? p.window (1 * i.scale) 0 = none ∧
      (d.lit p.window).ncard ≠ i.scale.toNat ^ 2 * p.after.screen.onCount := by
  intro d i
  have hw : d.opened (64 * 134217729) (32 * 134217729) = .ok (.plain 64 32 .background) := rfl
  obtain ⟨p, hp, hnone, hscreen, hwindow⟩ :=
    passes_drawingBar (fun _ => 0) "134217729" 134217729 rfl titleRefusal?_rom hw
  have hsides : d.HasSides p.window 64 32 := by
    rw [hwindow]
    exact Window.hasSides_render (.plain 64 32 .background) _ _
  refine ⟨⟨by decide, by decide⟩, p, by rw [hp]; exact List.mem_singleton_self p, hnone, ?_⟩
  rw [hscreen, onCount_bar]
  refine ⟨?_, isOn_bar, ?_, ?_⟩
  · intro cell hcell
    have hsmall := lt_of_mem_bar cell hcell
    have hscale : i.scale = 134217729 := rfl
    rw [hscale]
    exact Window.paintsExactly (by omega) (by omega) (by decide) (by decide)
  · rw [← Option.not_isSome_iff_eq_none, hsides]
    decide
  · have hle := hsides.ncard_lit_le
    have hmany : 64 * 32 < 134217729 ^ 2 * 4 := by decide
    exact Nat.ne_of_lt (Nat.lt_of_le_of_lt hle hmany)

end HostLoop

end ChipEight
