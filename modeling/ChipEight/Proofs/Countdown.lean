import ChipEight.Proofs.Footprint
import ChipEight.Proofs.Waiting
import Mathlib.Data.List.Induction

namespace ChipEight

inductive Timer where
  | delay | sound
  deriving DecidableEq

namespace Timer

def source? : Timer → Instruction → Option Register
  | delay, .setDelay x | sound, .setSound x => some x
  | _, _ => none

def reading : Timer → Machine → Int
  | delay, m => m.delay
  | sound, m => m.sound

end Timer

namespace Machine

def setting? (m : Machine) (t : Timer) : Command → Option Nat
  | .reset | .load _ _ => some 0
  | .cycle => (m.instruction?.bind t.source?).map fun x => m.registers[x].toNat
  | _ => none

def LeavesTimer (m : Machine) (t : Timer) (commands : List Command) : Prop :=
  m.Throughout (fun n c => n.setting? t c = none) commands

/-- The number of ticks that find the machine not waiting. -/
def ticksCounted (m : Machine) : List Command → Nat
  | [] => 0
  | c :: cs =>
    (if c = .tick ∧ m.isBlocked = false then 1 else 0) + (m.perform c).machine.ticksCounted cs

/-- A timer was last set to `value`, and `ticks` ticks have been counted since then. The timers of a
machine that has just been switched on are at zero. -/
inductive LastSet (m : Machine) (t : Timer) : List Command → Nat → Nat → Prop where
  | never {commands : List Command} (h : m.LeavesTimer t commands) :
    m.LastSet t commands 0 (m.ticksCounted commands)
  | set {before : List Command} {c : Command} {value : Nat} {after : List Command}
    (hc : (m.run before).setting? t c = some value)
    (h : ((m.run before).perform c).machine.LeavesTimer t after) :
    m.LastSet t (before ++ c :: after) value
      (((m.run before).perform c).machine.ticksCounted after)

structure CountsDown (m : Machine) (commands : List Command) : Prop where
  exists_lastSet : ∀ t, ∃ value ticks, m.LastSet t commands value ticks
  reading_eq : ∀ t value ticks, m.LastSet t commands value ticks →
    t.reading (m.run commands) = max 0 ((value : Int) - ticks)
  read_delay : ∀ x, (m.run commands).instruction? = some (.readDelay x) →
    (m.run commands).cycle.fault = none ∧ ∀ value ticks, m.LastSet .delay commands value ticks →
      ((m.run commands).cycle.machine.registers[x].toNat : Int) = max 0 ((value : Int) - ticks)
  sounding_iff : ∀ value ticks, m.LastSet .sound commands value ticks →
    ((m.run commands).isSounding = true ↔ 0 < max 0 ((value : Int) - ticks))

variable {m n : Machine} {i : Instruction} {t : Timer} {x : Register} {c : Command}
  {commands : List Command} {value ticks : Nat}

theorem Footprint.reading_of_source? (h : m.Footprint i n) (hs : t.source? i = some x) :
    t.reading n = m.registers[x].toNat := by
  cases t with
  | delay =>
    cases i with
    | setDelay y =>
      cases hs
      exact h.delay_eq x rfl
    | _ => cases hs
  | sound =>
    cases i with
    | setSound y =>
      cases hs
      exact h.sound_eq x rfl
    | _ => cases hs

theorem Frame.reading_of_source? (h : m.Frame i.opcode n) (hs : t.source? i = none) :
    t.reading n = t.reading m := by
  cases t with
  | delay =>
    refine h.delay fun ho => ?_
    cases i with
    | setDelay y => cases hs
    | _ => cases ho
  | sound =>
    refine h.sound fun ho => ?_
    cases i with
    | setSound y => cases hs
    | _ => cases ho

theorem setting?_cycle_of_some (hi : m.instruction? = some i) :
    m.setting? t .cycle = (t.source? i).map fun x => m.registers[x].toNat := by
  rw [setting?, hi]
  rfl

theorem reading_cycle_of_setting? (h : m.WellFormed) (hs : m.setting? t .cycle = some value) :
    t.reading m.cycle.machine = value := by
  cases hi : m.instruction? with
  | none =>
    rw [setting?, hi] at hs
    cases hs
  | some i =>
    rw [setting?_cycle_of_some hi] at hs
    obtain ⟨x, hx, rfl⟩ := Option.map_eq_some_iff.mp hs
    exact (footprint_cycle h hi).reading_of_source? hx

theorem reading_cycle_of_none (h : m.WellFormed) (hs : m.setting? t .cycle = none) :
    t.reading m.cycle.machine = t.reading m := by
  cases hi : m.instruction? with
  | none => rw [machine_cycle_of_none hi]
  | some i =>
    rw [setting?_cycle_of_some hi] at hs
    exact (frame_cycle h hi).reading_of_source? (Option.map_eq_none_iff.mp hs)

theorem reading_of_lifecycle (m : Machine) (t : Timer) :
    t.reading m.reset = 0 ∧ ∀ program address, t.reading (m.load program address).machine = 0 := by
  refine ⟨by cases t <;> rfl, fun program address => ?_⟩
  rw [load]
  split <;> cases t <;> rfl

theorem reading_release (m : Machine) (t : Timer) (key : Int) :
    t.reading (m.release key).machine = t.reading m := by
  by_cases hk : 0 ≤ key ∧ key < 16
  · obtain ⟨k, rfl⟩ := Int.eq_ofNat_of_zero_le hk.1
    cases hw : m.waiting with
    | none =>
      obtain ⟨keypad, hm⟩ := release_of_none hw k
      rw [hm]
      cases t <;> rfl
    | some r =>
      have hr := release_of_waiting hw ⟨k, by omega⟩
      rw [hr]
      cases t <;> rfl
  · rw [release_of_not hk]
    rfl

theorem reading_tick (m : Machine) (t : Timer) : t.reading m.tick =
    if m.isBlocked = false then tick.countDown (t.reading m) else t.reading m := by
  rw [tick]
  cases m.isBlocked <;> cases t <;> rfl

theorem reading_perform (h : m.WellFormed) (t : Timer) (c : Command) :
    t.reading (m.perform c).machine =
      match m.setting? t c with
      | some value => (value : Int)
      | none =>
        if c = .tick ∧ m.isBlocked = false then tick.countDown (t.reading m) else t.reading m := by
  cases c with
  | reset => exact (reading_of_lifecycle m t).1
  | load program address => exact (reading_of_lifecycle m t).2 program address
  | cycle =>
    cases hs : m.setting? t .cycle with
    | some value => exact reading_cycle_of_setting? h hs
    | none => exact reading_cycle_of_none h hs
  | tick =>
    simp only [setting?, true_and]
    exact reading_tick m t
  | press key =>
    obtain ⟨keypad, hp⟩ := press_eq m key
    rw [perform, hp]
    cases t <;> rfl
  | release key => exact reading_release m t key
  | markSeen => cases t <;> rfl

theorem reading_nonneg (h : m.WellFormed) (t : Timer) : 0 ≤ t.reading m := by
  cases t with
  | delay => exact h.delay.1
  | sound => exact h.sound.1

theorem reading_run (h : m.WellFormed) (hs : m.LeavesTimer t commands) :
    t.reading (m.run commands) = max 0 (t.reading m - m.ticksCounted commands) := by
  induction commands generalizing m with
  | nil =>
    have hm := reading_nonneg h t
    simp only [run_nil, ticksCounted]
    omega
  | cons c commands ih =>
    have hm := reading_nonneg h t
    have hc := reading_perform h t c
    rw [hs.head] at hc
    rw [run_cons, ih (h.perform c) hs.tail, hc, ticksCounted]
    simp only [tick.countDown]
    split <;> omega

theorem LastSet.reading_eq (h : m.WellFormed) (hm : t.reading m = 0)
    (hs : m.LastSet t commands value ticks) :
    t.reading (m.run commands) = max 0 ((value : Int) - ticks) := by
  cases hs with
  | never hn => rw [reading_run h hn, hm, Int.natCast_zero]
  | @set before c value after hc hn =>
    have hset := reading_perform (h.run before) t c
    rw [hc] at hset
    rw [run_append, run_cons, reading_run ((h.run before).perform c) hn, hset]

theorem exists_lastSet (m : Machine) (t : Timer) (commands : List Command) :
    ∃ value ticks, m.LastSet t commands value ticks := by
  induction commands using List.reverseRecOn with
  | nil => exact ⟨_, _, .never (.nil m)⟩
  | append_singleton commands c ih =>
    cases hc : (m.run commands).setting? t c with
    | some value => exact ⟨value, _, .set hc (.nil _)⟩
    | none =>
      obtain ⟨value, ticks, hs⟩ := ih
      cases hs with
      | never hn => exact ⟨_, _, .never (hn.concat hc)⟩
      | @set before d value after hd hn =>
        rw [run_append, run_cons] at hc
        rw [List.append_assoc, List.cons_append]
        exact ⟨value, _, .set hd (hn.concat hc)⟩

theorem cycle_of_readDelay (h : m.WellFormed) (hi : m.instruction? = some (.readDelay x)) :
    m.cycle.fault = none ∧ (m.cycle.machine.registers[x].toNat : Int) = m.delay := by
  have hd : 0 ≤ m.delay ∧ m.delay ≤ 255 := h.delay.imp_right Int.le_of_lt_add_one
  have he := readDelay_eq h.delay x
  have hf : (m.effect (.readDelay x)).fault = none := congrArg Outcome.fault he
  have hx := registers_setRegister m x (UInt8.ofNat m.delay.toNat) x
  rw [if_pos rfl] at hx
  rw [cycle_of_success hi hf, effect, he]
  exact ⟨rfl, (congrArg (fun b : UInt8 => (b.toNat : Int)) hx).trans (Memory.toNat_byteOf hd)⟩

theorem isSounding_iff (m : Machine) : m.isSounding = true ↔ 0 < m.sound :=
  decide_eq_true_iff

theorem countsDown (h : m.WellFormed) (hm : ∀ t : Timer, t.reading m = 0)
    (commands : List Command) : m.CountsDown commands where
  exists_lastSet t := exists_lastSet m t commands
  reading_eq t _ _ hs := hs.reading_eq h (hm t)
  read_delay x hi := by
    obtain ⟨hf, hx⟩ := cycle_of_readDelay (h.run commands) hi
    exact ⟨hf, fun _ _ hs => hx.trans (hs.reading_eq h (hm .delay))⟩
  sounding_iff value ticks hs := by
    rw [isSounding_iff, ← hs.reading_eq h (hm .sound)]
    rfl

/-- Whatever the host does to a machine, its timers show what they were last set to, less the ticks
that counted. -/
theorem timers_count_down (stream : Nat → UInt8) (commands : List Command) :
    (fresh stream).CountsDown commands :=
  countsDown (.fresh stream) (fun t => by cases t <;> rfl) commands

end Machine

end ChipEight
