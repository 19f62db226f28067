import ChipEight.Proofs.Failure
import ChipEight.Proofs.HostLoop

namespace ChipEight.HostLoop

theorem eq_press_or_release_of_mem_forwarded {batch : List Input} {c : Command}
    (hc : c ∈ forwarded batch) : ∃ k : Key, c = .press k.val ∨ c = .release k.val := by
  fun_induction forwarded batch with
  | case1 | case2 | case3 => cases hc
  | case4 k rest ih =>
    rcases List.mem_cons.mp hc with rfl | hc
    · exact ⟨k, .inl rfl⟩
    · exact ih hc
  | case5 k rest ih =>
    rcases List.mem_cons.mp hc with rfl | hc
    · exact ⟨k, .inr rfl⟩
    · exact ih hc
  | case6 _ _ _ _ _ _ ih => exact ih hc

theorem fault_of_mem_forwarded {batch : List Input} {c : Command} (hc : c ∈ forwarded batch)
    (m : Machine) : (m.perform c).fault = none := by
  obtain ⟨k, rfl | rfl⟩ := eq_press_or_release_of_mem_forwarded hc
  · exact Machine.fault_press m k
  · exact Machine.fault_release m k

theorem fault_forwarded (batch : List Input) (m : Machine) :
    (m.performEach (forwarded batch)).fault = none :=
  Machine.fault_performEach fun _ hc n => fault_of_mem_forwarded hc n

/-- The inputs and `k` cycles succeed, and the next cycle fails by `f` and ends the turn. -/
def Turn.FailsAt (t : Turn) (k : Nat) (f : Fault) : Prop :=
  let o := t.before.performEach (forwarded t.batch ++ List.replicate k .cycle)
  o.fault = none ∧ o.machine.cycle.fault = some f ∧ o.machine.cycle.machine = t.outcome.machine

theorem exists_failsAt {cpuHz : Int} {batch : List Input} {m : Machine} {f : Fault}
    (h : (turn cpuHz batch m).outcome.fault = some f) :
    ∃ k < share cpuHz, (turn cpuHz batch m).FailsAt k f := by
  have hfwd := fault_forwarded batch m
  have hk : ∀ k, m.performEach (forwarded batch ++ List.replicate k .cycle) =
      (Machine.cycles k (m.performEach (forwarded batch)).machine).after
        (m.performEach (forwarded batch)).events := by
    intro k
    rw [Machine.performEach_append, Outcome.andThen_of_none hfwd,
      Machine.performEach_replicate_cycle]
  have hturn : (turn cpuHz batch m).outcome =
      (m.performEach (forwarded batch ++ List.replicate (share cpuHz) .cycle)).andThen
        fun n => .done n.tick.markSeen := Machine.performEach_append m _ _
  cases hf : (m.performEach (forwarded batch ++ List.replicate (share cpuHz) .cycle)).fault with
  | none =>
    -- timers and screen cannot fail
    rw [hturn, Outcome.andThen_of_none hf] at h
    cases h
  | some g =>
    rw [Outcome.andThen_of_some hf, hk] at hturn
    rw [hturn] at h
    obtain ⟨k, hlt, hnone, hsome, hmachine⟩ := Machine.exists_of_fault_cycles h
    refine ⟨k, hlt, ?_⟩
    rw [Turn.FailsAt, hturn]
    simp only [turn, hk]
    exact ⟨hnone, hsome, hmachine⟩

theorem mem_turns {cpuHz : Int} {batches : List (List Input)} {m : Machine} (h : m.WellFormed)
    {t : Turn} (ht : t ∈ turns cpuHz batches m) :
    t.before.WellFormed ∧ t = turn cpuHz t.batch t.before := by
  induction batches generalizing m with
  | nil =>
    obtain rfl := List.mem_singleton.mp ht
    exact ⟨h, rfl⟩
  | cons batch rest ih =>
    rw [turns] at ht
    split at ht
    · obtain rfl := List.mem_singleton.mp ht
      exact ⟨h, rfl⟩
    · rcases List.mem_cons.mp ht with rfl | ht
      · exact ⟨h, rfl⟩
      · exact ih (h.performEach (commands cpuHz batch)) ht

end ChipEight.HostLoop
