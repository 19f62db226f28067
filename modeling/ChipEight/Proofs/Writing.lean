import ChipEight.Memory
import Mathlib.Data.List.Induction

namespace ChipEight.Memory

inductive Action where
  | write (data : List Int) (start : Int)
  | writeProgram (data : List Int) (start : Int)
  | clear
  deriving DecidableEq

def writeFault? (size : Nat) (data : List Int) (start : Int) : Option Fault :=
  if start < 0 ∨ (size : Int) < start + data.length then
    some (.writeOutside start (start + data.length))
  else if ∀ b ∈ data, 0 ≤ b ∧ b ≤ 255 then none
  else some .byteRange

namespace Action

def fault? (size : Nat) : Action → Option Fault
  | write data start => writeFault? size data start
  | writeProgram data start =>
    if start < 0x200 then some (.protectedWrite start (start + data.length))
    else writeFault? size data start
  | clear => none

def written? : Action → Option (List Int × Int)
  | write data start | writeProgram data start => some (data, start)
  | clear => none

/-- A write that succeeds and covers an address has a number for it. -/
def Puts (size : Nat) (a : Action) (address : Nat) (value : Int) : Prop :=
  a.fault? size = none ∧ ∃ data start, a.written? = some (data, start) ∧ start ≤ address ∧
    data[(address - start).toNat]? = some value

end Action

def attempt (m : Memory) : Action → Except Fault Memory
  | .write data start => m.write data start
  | .writeProgram data start => m.writeProgram data start
  | .clear => .ok m.clear

def behind (m : Memory) (a : Action) : Memory :=
  match m.attempt a with
  | .ok n => n
  | .error _ => m

def run (m : Memory) (actions : List Action) : Memory := actions.foldl behind m

/-- A memory that was blank is the overlay of the writes that succeeded since it was cleared. -/
structure Overlays (size : Nat) (actions : List Action) (m : Memory) : Prop where
  size_eq : m.size = size
  byteAt_of_puts : ∀ before a after address value, actions = before ++ a :: after →
    a.Puts size address value → (∀ b ∈ after, b ≠ .clear ∧ ∀ w, ¬ b.Puts size address w) →
    ((m.byteAt address).toNat : Int) = value
  byteAt_of_not : ∀ address, (∀ before a after value, actions = before ++ a :: after →
    a.Puts size address value → .clear ∈ after) → m.byteAt address = 0

structure Guarded (m : Memory) : Prop where
  error_iff : ∀ a f, m.attempt a = .error f ↔ a.fault? m.size = some f
  behind_of_error : ∀ a f, m.attempt a = .error f → m.behind a = m
  byteAt_writeProgram : ∀ data start address, address < 0x200 →
    (m.behind (.writeProgram data start)).byteAt address = m.byteAt address

variable {m : Memory} {a : Action} {actions : List Action} {data : List Int} {start value : Int}
  {size address : Nat}

@[simp] theorem run_nil : m.run [] = m := rfl

@[simp] theorem run_cons : m.run (a :: actions) = (m.behind a).run actions := rfl

theorem run_append (m : Memory) (before after : List Action) :
    m.run (before ++ after) = (m.run before).run after := by
  simp only [run, List.foldl_append]

theorem all_isByte_iff : data.all isByte = true ↔ ∀ b ∈ data, 0 ≤ b ∧ b ≤ 255 := by
  simp only [List.all_eq_true, isByte, Bool.and_eq_true, decide_eq_true_eq]
  exact forall₂_congr fun b _ => by omega

theorem write_eq (m : Memory) (data : List Int) (start : Int) : m.write data start =
    match writeFault? m.size data start with
    | some f => .error f
    | none => .ok (m.overlay start (data.map byteOf)) := by
  by_cases hr : start < 0 ∨ (m.size : Int) < start + data.length
  · rw [write, if_pos hr, writeFault?, if_pos hr]
  · rw [write, if_neg hr, writeFault?, if_neg hr]
    by_cases hb : ∀ b ∈ data, 0 ≤ b ∧ b ≤ 255
    · rw [if_pos (all_isByte_iff.mpr hb), if_pos hb]
    · rw [if_neg (mt all_isByte_iff.mp hb), if_neg hb]

theorem attempt_eq (hw : a.written? = some (data, start)) : m.attempt a =
    match a.fault? m.size with
    | some f => .error f
    | none => .ok (m.overlay start (data.map byteOf)) := by
  cases a with
  | write data' start' =>
    cases hw
    exact write_eq m data start
  | writeProgram data' start' =>
    cases hw
    by_cases hlo : start < 0x200
    · rw [Action.fault?, if_pos hlo]
      exact if_pos hlo
    · rw [Action.fault?, if_neg hlo, ← write_eq]
      exact if_neg hlo
  | clear => cases hw

theorem attempt_eq_error_iff {f : Fault} :
    m.attempt a = .error f ↔ a.fault? m.size = some f := by
  cases hw : a.written? with
  | none =>
    cases a with
    | clear => exact ⟨nofun, nofun⟩
    | _ => cases hw
  | some w =>
    rw [attempt_eq hw]
    cases a.fault? m.size <;> simp

theorem behind_of_fault {f : Fault} (hf : a.fault? m.size = some f) : m.behind a = m := by
  rw [behind, attempt_eq_error_iff.mpr hf]

theorem behind_of_success (hw : a.written? = some (data, start)) (hf : a.fault? m.size = none) :
    m.behind a = m.overlay start (data.map byteOf) := by
  rw [behind, attempt_eq hw, hf]

theorem bounds_of_success (hw : a.written? = some (data, start)) (hf : a.fault? size = none) :
    0 ≤ start ∧ start + data.length ≤ size ∧ ∀ b ∈ data, 0 ≤ b ∧ b ≤ 255 := by
  have hwrite : writeFault? size data start = none := by
    cases a with
    | write data' start' =>
      cases hw
      exact hf
    | writeProgram data' start' =>
      cases hw
      rw [Action.fault?] at hf
      split at hf
      · cases hf
      · exact hf
    | clear => cases hw
  rw [writeFault?] at hwrite
  split at hwrite
  · cases hwrite
  · next hr =>
    split at hwrite
    · next hb => exact ⟨by omega, by omega, hb⟩
    · cases hwrite

inductive Effect (m : Memory) (a : Action) : Prop where
  | clears (ha : a = .clear) (hn : m.behind a = m.clear)
  | lays (data : List Int) (start : Int) (hw : a.written? = some (data, start))
    (hf : a.fault? m.size = none) (hn : m.behind a = m.overlay start (data.map byteOf))
  | fails (f : Fault) (hf : a.fault? m.size = some f) (hn : m.behind a = m)

theorem effect (m : Memory) (a : Action) : m.Effect a := by
  cases hf : a.fault? m.size with
  | some f => exact .fails f hf (behind_of_fault hf)
  | none =>
    cases hw : a.written? with
    | some w => exact .lays w.1 w.2 hw hf (behind_of_success hw hf)
    | none =>
      cases a with
      | clear => exact .clears rfl rfl
      | _ => cases hw

theorem size_behind (m : Memory) (a : Action) : (m.behind a).size = m.size := by
  cases m.effect a with
  | clears ha hn => rw [hn, size_clear]
  | lays data start hw hf hn =>
    obtain ⟨hlo, hhi, -⟩ := bounds_of_success hw hf
    rw [hn, size_overlay hlo (by rw [List.length_map]; exact hhi)]
  | fails f hf hn => rw [hn]

theorem byteAt_behind_of_puts (hp : a.Puts m.size address value) :
    (((m.behind a).byteAt address).toNat : Int) = value := by
  obtain ⟨hf, data, start, hw, hle, hv⟩ := hp
  obtain ⟨hlo, hhi, hb⟩ := bounds_of_success hw hf
  obtain ⟨hk, hget⟩ := List.getElem?_eq_some_iff.mp hv
  have hplace : address - start.toNat = (address - start).toNat := by omega
  rw [behind_of_success hw hf, byteAt_overlay hlo (by rw [List.length_map]; exact hhi),
    List.length_map, if_pos (by omega), hplace, List.getD_eq_getElem?_getD, List.getElem?_map, hv]
  exact toNat_byteOf (hb value (hget ▸ List.getElem_mem hk))

theorem byteAt_behind_of_not (ha : a ≠ .clear) (hp : ∀ value, ¬ a.Puts m.size address value) :
    (m.behind a).byteAt address = m.byteAt address := by
  cases m.effect a with
  | clears hc _ => exact absurd hc ha
  | lays data start hw hf hn =>
    obtain ⟨hlo, hhi, -⟩ := bounds_of_success hw hf
    rw [hn, byteAt_overlay hlo (by rw [List.length_map]; exact hhi), List.length_map]
    refine if_neg fun hin => ?_
    have hk : (address - start).toNat < data.length := by omega
    exact hp _ ⟨hf, data, start, hw, hin.1, List.getElem?_eq_getElem hk⟩
  | fails f hf hn => rw [hn]

theorem size_run (m : Memory) (actions : List Action) : (m.run actions).size = m.size := by
  induction actions generalizing m with
  | nil => rfl
  | cons a actions ih => rw [run_cons, ih, size_behind]

theorem byteAt_run_of_not
    (h : ∀ a ∈ actions, a ≠ .clear ∧ ∀ value, ¬ a.Puts m.size address value) :
    (m.run actions).byteAt address = m.byteAt address := by
  induction actions generalizing m with
  | nil => rfl
  | cons a actions ih =>
    obtain ⟨hc, hp⟩ := h a List.mem_cons_self
    have hrest : ∀ b ∈ actions, b ≠ .clear ∧ ∀ value, ¬ b.Puts (m.behind a).size address value :=
      fun b hb => (size_behind m a).symm ▸ h b (List.mem_cons_of_mem a hb)
    rw [run_cons, ih hrest, byteAt_behind_of_not hc hp]

theorem byteAt_run_blank (h : ∀ before a after value, actions = before ++ a :: after →
    a.Puts size address value → .clear ∈ after) :
    ((blank size).run actions).byteAt address = 0 := by
  induction actions using List.reverseRecOn with
  | nil => exact byteAt_blank size address
  | append_singleton actions a ih =>
    have hsize : ((blank size).run actions).size = size := by rw [size_run, size_blank]
    rw [run_append, run_cons, run_nil]
    by_cases ha : a = .clear
    · rw [ha]
      exact byteAt_clear _ _
    -- the last action puts nothing there, and no clearing is behind an earlier write
    · have hlast : ∀ value, ¬ a.Puts ((blank size).run actions).size address value := by
        intro value hp
        rw [hsize] at hp
        exact absurd (h actions a [] value rfl hp) List.not_mem_nil
      rw [byteAt_behind_of_not ha hlast]
      refine ih fun before b after value he hp => ?_
      have hmem := h before b (after ++ [a]) value (by rw [he, List.append_assoc]; rfl) hp
      exact (List.mem_append.mp hmem).resolve_right fun hc =>
        ha (List.mem_singleton.mp hc).symm

theorem overlays (size : Nat) (actions : List Action) :
    ((blank size).run actions).Overlays size actions where
  size_eq := by rw [size_run, size_blank]
  byteAt_of_puts before a after address value he hp hafter := by
    have hsize : ((blank size).run before).size = size := by rw [size_run, size_blank]
    have hrest : ∀ b ∈ after, b ≠ .clear ∧
        ∀ w, ¬ b.Puts (((blank size).run before).behind a).size address w := by
      rw [size_behind, hsize]
      exact hafter
    rw [he, run_append, run_cons, byteAt_run_of_not hrest]
    exact byteAt_behind_of_puts (hsize.symm ▸ hp)
  byteAt_of_not _ h := byteAt_run_blank h

theorem guarded (m : Memory) : m.Guarded where
  error_iff _ _ := attempt_eq_error_iff
  behind_of_error a f hf := behind_of_fault (attempt_eq_error_iff.mp hf)
  byteAt_writeProgram data start address ha := by
    refine byteAt_behind_of_not nofun ?_
    rintro value ⟨hf, data', start', hw, hle, -⟩
    cases hw
    rw [Action.fault?, if_pos (by omega)] at hf
    cases hf

/-- A memory of any size is the overlay of the writes that succeeded, and it tells which do. -/
theorem overlay_of_writes :
    (∀ (size : Nat) (actions : List Action), ((blank size).run actions).Overlays size actions) ∧
      ∀ m : Memory, m.Guarded :=
  ⟨overlays, guarded⟩

example : ((blank 5).run [.write [7] 0, .clear, .write [1, 2, 3] 1, .write [9] 2, .write [4, 4] 4,
    .write [256] 1]).bytes = #[0, 1, 9, 3, 0] := by
  decide

end ChipEight.Memory
