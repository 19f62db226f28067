import ChipEight.Proofs.History

namespace ChipEight

namespace Visit

def IsCall (v : Visit) : Prop := v.instruction.opcode = .call

def IsReturn (v : Visit) : Prop := v.instruction.opcode = .ret

instance (v : Visit) : Decidable v.IsCall := inferInstanceAs (Decidable (_ = _))

instance (v : Visit) : Decidable v.IsReturn := inferInstanceAs (Decidable (_ = _))

theorem IsReturn.not_isCall {v : Visit} (h : v.IsReturn) : ¬ v.IsCall := by
  rw [IsReturn] at h
  rw [IsCall, h]
  decide

def weight (v : Visit) : Int := if v.IsCall then 1 else if v.IsReturn then -1 else 0

theorem weight_of_isCall {v : Visit} (h : v.IsCall) : v.weight = 1 := if_pos h

theorem weight_of_isReturn {v : Visit} (h : v.IsReturn) : v.weight = -1 :=
  (if_neg h.not_isCall).trans (if_pos h)

theorem weight_of_plain {v : Visit} (hc : ¬ v.IsCall) (hr : ¬ v.IsReturn) : v.weight = 0 :=
  (if_neg hc).trans (if_neg hr)

end Visit

namespace Nesting

/-- Histories in which every call is followed by its return, and every return follows its call. -/
inductive Balanced : List Visit → Prop where
  | nil : Balanced []
  | plain {t : List Visit} {v : Visit} (ht : Balanced t) (hc : ¬ v.IsCall) (hr : ¬ v.IsReturn) :
      Balanced (t ++ [v])
  | nest {s t : List Visit} {v w : Visit} (hs : Balanced s) (hv : v.IsCall) (ht : Balanced t)
      (hw : w.IsReturn) : Balanced (s ++ v :: (t ++ [w]))

/-- The call at position `k` has been returned from: behind it stands a return, and what was
executed between the two is balanced. -/
def Returned (t : List Visit) (k : Nat) : Prop :=
  ∃ n, Balanced ((t.drop (k + 1)).take n) ∧ ∃ w, t[k + 1 + n]? = some w ∧ w.IsReturn

/-- The calls of a history that have not been returned from, each with its position, in the order
of their execution. -/
structure Pending (t : List Visit) (calls : List (Nat × Visit)) : Prop where
  ascending : calls.Pairwise fun c d => c.1 < d.1
  mem_iff : ∀ k v, (k, v) ∈ calls ↔ t[k]? = some v ∧ v.IsCall ∧ ¬ Returned t k

inductive Cut : List Visit → List (Nat × Visit) → Prop where
  | none {t : List Visit} (ht : Balanced t) : Cut t []
  | call {s t : List Visit} {calls : List (Nat × Visit)} {v : Visit} (hs : Cut s calls)
      (hv : v.IsCall) (ht : Balanced t) : Cut (s ++ v :: t) (calls ++ [(s.length, v)])

@[simp] def depth : List Visit → Int
  | [] => 0
  | v :: t => v.weight + depth t

@[simp] theorem depth_append (s t : List Visit) : depth (s ++ t) = depth s + depth t := by
  induction s with
  | nil => rw [List.nil_append, depth, Int.zero_add]
  | cons v s ih => rw [List.cons_append, depth, depth, ih, Int.add_assoc]

theorem Balanced.append {s t : List Visit} (hs : Balanced s) (ht : Balanced t) :
    Balanced (s ++ t) := by
  induction ht with
  | nil =>
    rw [List.append_nil]
    exact hs
  | plain _ hc hr ih =>
    rw [← List.append_assoc]
    exact .plain ih hc hr
  | nest _ hv ht hw ih _ =>
    rw [← List.append_assoc]
    exact .nest ih hv ht hw

theorem Balanced.depth_eq {t : List Visit} (h : Balanced t) : depth t = 0 := by
  induction h with
  | nil => rfl
  | plain _ hc hr ih => simp [ih, Visit.weight_of_plain hc hr]
  | nest _ hv _ hw ihs iht =>
    simp [ihs, iht, Visit.weight_of_isCall hv, Visit.weight_of_isReturn hw]

/-- Starting `d` calls deep, no return of the history lacks its call. -/
def Supplied : Int → List Visit → Prop
  | d, [] => 0 ≤ d
  | d, v :: t => 0 ≤ d ∧ Supplied (d + v.weight) t

theorem Supplied.nonneg {d : Int} {t : List Visit} (h : Supplied d t) : 0 ≤ d := by
  cases t with
  | nil => exact h
  | cons v t => exact h.1

theorem supplied_append {d : Int} {s t : List Visit} :
    Supplied d (s ++ t) ↔ Supplied d s ∧ Supplied (d + depth s) t := by
  induction s generalizing d with
  | nil =>
    rw [List.nil_append, depth, Int.add_zero]
    exact ⟨fun h => ⟨h.nonneg, h⟩, fun h => h.2⟩
  | cons v s ih =>
    rw [List.cons_append, Supplied, Supplied, ih, depth, Int.add_assoc, and_assoc]

theorem Supplied.depth {d : Int} {t : List Visit} (h : Supplied d t) : 0 ≤ d + depth t := by
  have ht : Supplied d (t ++ []) := by
    rw [List.append_nil]
    exact h
  exact (supplied_append.mp ht).2

theorem Balanced.supplied {t : List Visit} (h : Balanced t) {d : Int} (hd : 0 ≤ d) :
    Supplied d t := by
  induction h generalizing d with
  | nil => exact hd
  | plain ht hc hr ih =>
    apply supplied_append.mpr
    rw [ht.depth_eq, Supplied, Visit.weight_of_plain hc hr, Int.add_zero, Int.add_zero]
    exact ⟨ih hd, hd, hd⟩
  | nest hs hv ht hw ihs iht =>
    apply supplied_append.mpr
    rw [hs.depth_eq, Supplied, Visit.weight_of_isCall hv, Int.add_zero]
    refine ⟨ihs hd, hd, supplied_append.mpr ⟨iht (by omega), ?_⟩⟩
    rw [ht.depth_eq, Supplied, Visit.weight_of_isReturn hw, Supplied]
    omega

theorem not_returned_of_supplied {t : List Visit} {k : Nat} (h : Supplied 0 (t.drop (k + 1))) :
    ¬ Returned t k := by
  rintro ⟨n, hb, w, hget, hw⟩
  rw [← List.getElem?_drop] at hget
  obtain ⟨hn, rfl⟩ := List.getElem?_eq_some_iff.mp hget
  rw [← List.take_append_drop n (t.drop (k + 1)), List.drop_eq_getElem_cons hn] at h
  have hrest := (supplied_append.mp h).2.2.nonneg
  rw [hb.depth_eq, Visit.weight_of_isReturn hw] at hrest
  omega

theorem Returned.append_right {t : List Visit} {k : Nat} (h : Returned t k) (u : List Visit) :
    Returned (t ++ u) k := by
  obtain ⟨n, hb, w, hget, hw⟩ := h
  obtain ⟨hn, -⟩ := List.getElem?_eq_some_iff.mp hget
  refine ⟨n, ?_, w, ?_, hw⟩
  · rw [List.drop_append_of_le_length (by omega),
      List.take_append_of_le_length (by rw [List.length_drop]; omega)]
    exact hb
  · rw [List.getElem?_append_left hn]
    exact hget

theorem Returned.append_left {t : List Visit} {k : Nat} (h : Returned t k) (s : List Visit) :
    Returned (s ++ t) (s.length + k) := by
  obtain ⟨n, hb, w, hget, hw⟩ := h
  refine ⟨n, ?_, w, ?_, hw⟩
  · rw [Nat.add_assoc, List.drop_length_add_append]
    exact hb
  · rw [Nat.add_assoc, Nat.add_assoc, List.getElem?_append_right (by omega),
      Nat.add_sub_cancel_left, ← Nat.add_assoc]
    exact hget

theorem Balanced.returned {t : List Visit} (h : Balanced t) {k : Nat} {c : Visit}
    (hget : t[k]? = some c) (hc : c.IsCall) : Returned t k := by
  induction h generalizing k with
  | nil => cases hget
  | @plain t v ht hp hr ih =>
    -- The instruction at the end is no call, so the call stands before it.
    by_cases hk : k < t.length
    · rw [List.getElem?_append_left hk] at hget
      exact (ih hget).append_right _
    · rw [List.getElem?_append_right (by omega)] at hget
      obtain rfl := List.mem_singleton.mp (List.mem_of_getElem? hget)
      exact absurd hc hp
  | @nest s t v w hs hv ht hw ihs iht =>
    by_cases hk : k < s.length
    · rw [List.getElem?_append_left hk] at hget
      exact (ihs hget).append_right _
    · rw [List.getElem?_append_right (by omega)] at hget
      have hks : k = s.length + (k - s.length) := by omega
      rw [hks]
      apply Returned.append_left
      -- Either the call is the opening bracket, or it stands inside.
      cases hj : k - s.length with
      | zero =>
        refine ⟨t.length, by simpa using ht, w, ?_, hw⟩
        rw [Nat.zero_add, Nat.add_comm, List.getElem?_cons_succ, List.getElem?_concat_length]
      | succ j =>
        rw [hj, List.getElem?_cons_succ] at hget
        rw [Nat.add_comm j 1, ← List.singleton_append]
        apply Returned.append_left (s := [v])
        by_cases hjt : j < t.length
        · rw [List.getElem?_append_left hjt] at hget
          exact (iht hget).append_right _
        · rw [List.getElem?_append_right (by omega)] at hget
          obtain rfl := List.mem_singleton.mp (List.mem_of_getElem? hget)
          exact absurd hc hw.not_isCall

namespace Cut

variable {t : List Visit} {calls : List (Nat × Visit)}

theorem get_of_mem (h : Cut t calls) {k : Nat} {v : Visit} (hm : (k, v) ∈ calls) :
    t[k]? = some v ∧ v.IsCall := by
  induction h with
  | none _ => cases hm
  | call _ hv _ ih =>
    rcases List.mem_append.mp hm with hm | hm
    · obtain ⟨hget, hc⟩ := ih hm
      rw [List.getElem?_append_left (List.getElem?_eq_some_iff.mp hget).1]
      exact ⟨hget, hc⟩
    · obtain ⟨rfl, rfl⟩ := Prod.mk.inj (List.mem_singleton.mp hm)
      exact ⟨by simp, hv⟩

theorem lt_of_mem (h : Cut t calls) {c : Nat × Visit} (hm : c ∈ calls) : c.1 < t.length :=
  (List.getElem?_eq_some_iff.mp (h.get_of_mem hm).1).1

theorem ascending (h : Cut t calls) : calls.Pairwise fun c d => c.1 < d.1 := by
  induction h with
  | none _ => exact .nil
  | call hs _ _ ih =>
    refine List.pairwise_append.mpr ⟨ih, List.pairwise_singleton _ _, fun c hc d hd => ?_⟩
    obtain rfl := List.mem_singleton.mp hd
    exact hs.lt_of_mem hc

theorem supplied_of_mem (h : Cut t calls) {c : Nat × Visit} (hm : c ∈ calls) :
    Supplied 0 (t.drop (c.1 + 1)) := by
  induction h with
  | none _ => cases hm
  | call hs hv ht ih =>
    rcases List.mem_append.mp hm with hm | hm
    · have hc := ih hm
      have hd := hc.depth
      have hle : c.1 + 1 ≤ _ := hs.lt_of_mem hm
      rw [List.drop_append_of_le_length hle]
      refine supplied_append.mpr ⟨hc, hd, ht.supplied ?_⟩
      rw [Visit.weight_of_isCall hv]
      omega
    · obtain rfl := List.mem_singleton.mp hm
      rw [List.drop_length_add_append, List.drop_one, List.tail_cons]
      exact ht.supplied (Int.le_refl 0)

theorem mem_or_returned (h : Cut t calls) {k : Nat} {v : Visit} (hget : t[k]? = some v)
    (hv : v.IsCall) : (k, v) ∈ calls ∨ Returned t k := by
  induction h generalizing k with
  | none ht => exact .inr (ht.returned hget hv)
  | @call s t calls u hs hu ht ih =>
    by_cases hk : k < s.length
    · rw [List.getElem?_append_left hk] at hget
      rcases ih hget with hm | hr
      · exact .inl (List.mem_append_left _ hm)
      · exact .inr (hr.append_right _)
    · rw [List.getElem?_append_right (by omega)] at hget
      have hks : k = s.length + (k - s.length) := by omega
      cases hj : k - s.length with
      | zero =>
        rw [hj, List.getElem?_cons_zero] at hget
        obtain rfl := Option.some.inj hget
        rw [hks, hj]
        exact .inl (List.mem_append_right _ List.mem_cons_self)
      | succ j =>
        rw [hj, List.getElem?_cons_succ] at hget
        rw [hks, hj, Nat.add_comm j 1]
        exact .inr (((ht.returned hget hv).append_left [u]).append_left s)

theorem pending (h : Cut t calls) : Pending t calls := by
  refine ⟨h.ascending, fun k v => ⟨fun hm => ?_, fun hp => ?_⟩⟩
  · obtain ⟨hget, hv⟩ := h.get_of_mem hm
    exact ⟨hget, hv, not_returned_of_supplied (h.supplied_of_mem hm)⟩
  · exact (h.mem_or_returned hp.1 hp.2.1).resolve_right hp.2.2

theorem append_balanced (h : Cut t calls) {u : List Visit} (hu : Balanced u) :
    Cut (t ++ u) calls := by
  cases h with
  | none ht => exact .none (ht.append hu)
  | call hs hv ht =>
    rw [List.append_assoc, List.cons_append]
    exact .call hs hv (ht.append hu)

theorem append_plain (h : Cut t calls) {v : Visit} (hc : ¬ v.IsCall) (hr : ¬ v.IsReturn) :
    Cut (t ++ [v]) calls :=
  h.append_balanced (.plain .nil hc hr)

theorem append_call (h : Cut t calls) {v : Visit} (hv : v.IsCall) :
    Cut (t ++ [v]) (calls ++ [(t.length, v)]) :=
  .call h hv .nil

theorem append_return {c : Nat × Visit} (h : Cut t (calls ++ [c])) {w : Visit} (hw : w.IsReturn) :
    Cut (t ++ [w]) calls := by
  generalize hd : calls ++ [c] = ds at h
  cases h with
  | none _ => exact absurd hd (by simp)
  | call hs hv ht =>
    obtain ⟨rfl, -⟩ := List.append_inj' hd rfl
    rw [List.append_assoc, List.cons_append]
    exact hs.append_balanced (.nest .nil hv ht hw)

end Cut

end Nesting

end ChipEight
