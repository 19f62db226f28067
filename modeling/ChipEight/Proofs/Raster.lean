import Mathlib

namespace ChipEight

namespace Raster

variable {α : Type}

/-- What a raster holds in column `x` of row `y`. -/
def at? (rows : Array (Array α)) (x y : Nat) : Option α := (rows[y]?).bind (·[x]?)

def count (p : α → Bool) (rows : Array (Array α)) : Nat :=
  rows.foldl (fun n row => n + row.countP p) 0

def HasSides (rows : Array (Array α)) (width height : Nat) : Prop :=
  rows.size = height ∧ ∀ r ∈ rows, r.size = width

theorem sum_map_eq_sum_range {l : List α} {f : α → Nat} {g : Nat → Nat}
    (h : ∀ i a, l[i]? = some a → f a = g i) : (l.map f).sum = ∑ i ∈ Finset.range l.length, g i := by
  induction l generalizing g with
  | nil => rfl
  | cons a l ih =>
    rw [List.map_cons, List.sum_cons, List.length_cons, Finset.sum_range_succ', h 0 a rfl,
      ih fun i b hb => h (i + 1) b hb, Nat.add_comm]

theorem countP_eq_sum (p : α → Bool) (l : List α) :
    l.countP p = (l.map fun a => (p a).toNat).sum := by
  induction l with
  | nil => rfl
  | cons a l ih => cases h : p a <;> simp [h, ih, Nat.add_comm]

theorem count_eq_sum_rows (p : α → Bool) (rows : Array (Array α)) :
    count p rows = (rows.toList.map fun r => r.countP p).sum := by
  rw [List.sum_eq_foldl, List.foldl_map, Array.foldl_toList, count]

theorem count_eq_sum {rows : Array (Array α)} {width height : Nat}
    (h : HasSides rows width height) {p : α → Bool} {f : Nat → Nat → Bool}
    (hf : ∀ x y a, at? rows x y = some a → p a = f x y) :
    count p rows = ∑ y ∈ Finset.range height, ∑ x ∈ Finset.range width, (f x y).toNat := by
  have hrow : ∀ y r, rows.toList[y]? = some r →
      r.countP p = ∑ x ∈ Finset.range width, (f x y).toNat := by
    intro y r hr
    rw [Array.getElem?_toList] at hr
    rw [← h.2 r (Array.mem_of_getElem? hr), ← Array.countP_toList, countP_eq_sum]
    exact sum_map_eq_sum_range fun x a ha => congrArg Bool.toNat (hf x y a
      (Option.bind_eq_some_iff.mpr ⟨r, hr, Array.getElem?_toList ▸ ha⟩))
  rw [count_eq_sum_rows, sum_map_eq_sum_range hrow, Array.length_toList, h.1]

theorem lt_of_at? {rows : Array (Array α)} {width height : Nat} (h : HasSides rows width height)
    {x y : Nat} {a : α} (ha : at? rows x y = some a) : x < width ∧ y < height := by
  obtain ⟨r, hr, hx⟩ := Option.bind_eq_some_iff.mp ha
  obtain ⟨hy, rfl⟩ := Array.getElem?_eq_some_iff.mp hr
  obtain ⟨hx, -⟩ := Array.getElem?_eq_some_iff.mp hx
  rw [h.2 _ (Array.getElem_mem hy)] at hx
  exact ⟨hx, h.1 ▸ hy⟩

theorem exists_at? {rows : Array (Array α)} {width height : Nat} (h : HasSides rows width height)
    {x y : Nat} (hx : x < width) (hy : y < height) : ∃ a, at? rows x y = some a := by
  have hy' : y < rows.size := h.1 ▸ hy
  have hx' : x < rows[y].size := h.2 _ (Array.getElem_mem hy') ▸ hx
  exact ⟨rows[y][x], by rw [at?, Array.getElem?_eq_getElem hy', Option.bind_some,
    Array.getElem?_eq_getElem hx']⟩

theorem ext_at? {rows rows' : Array (Array α)} {width height : Nat}
    (h : HasSides rows width height) (h' : HasSides rows' width height)
    (hat : ∀ x < width, ∀ y < height, at? rows x y = at? rows' x y) : rows = rows' := by
  refine Array.ext (h.1.trans h'.1.symm) fun y hy hy' => ?_
  have hsize := h.2 _ (Array.getElem_mem hy)
  have hsize' := h'.2 _ (Array.getElem_mem hy')
  refine Array.ext (hsize.trans hsize'.symm) fun x hx hx' => ?_
  have hxy := hat x (hsize ▸ hx) y (h.1 ▸ hy)
  simpa only [at?, Array.getElem?_eq_getElem hy, Array.getElem?_eq_getElem hy', Option.bind_some,
    Array.getElem?_eq_getElem hx, Array.getElem?_eq_getElem hx', Option.some.injEq] using hxy

theorem at?_replicate {width height x y : Nat} {a b : α}
    (h : at? (Array.replicate height (Array.replicate width a)) x y = some b) : b = a := by
  obtain ⟨r, hr, hx⟩ := Option.bind_eq_some_iff.mp h
  rw [(Array.mem_replicate.mp (Array.mem_of_getElem? hr)).2] at hx
  exact (Array.mem_replicate.mp (Array.mem_of_getElem? hx)).2

end Raster

end ChipEight
