namespace ChipEight.Stretch

/-- The position that `i` names in a sequence of `n` items, if there is one: `-k` stands for the
`k`-th item from the end. -/
def position? (n : Nat) (i : Int) : Option Nat :=
  let j := if i < 0 then i + n else i
  if 0 ≤ j ∧ j < n then some j.toNat else none

/-- The boundary that `i` names in a sequence of `n` items. Boundaries beyond the ends are moved to
the ends. -/
def boundary (n : Nat) (i : Int) : Nat :=
  min n (if i < 0 then i + n else i).toNat

variable {α : Type}

def items (xs : Array α) (i j : Int) : Array α :=
  xs.extract (boundary xs.size i) (boundary xs.size j)

/-- Puts `ys` in the place of the items from boundary `i` up to boundary `j`. If `j` lies in front
of `i`, nothing is taken out, and `ys` is put in at `i`. -/
def replace (xs : Array α) (i j : Int) (ys : List α) : Array α :=
  let start := boundary xs.size i
  let stop := max start (boundary xs.size j)
  xs.extract 0 start ++ ys.toArray ++ xs.extract stop xs.size

theorem position?_of_lt {n : Nat} {i : Int} (h : 0 ≤ i) (hn : i < n) :
    position? n i = some i.toNat := by
  simp only [position?, if_neg (Int.not_lt.mpr h), if_pos (And.intro h hn)]

theorem boundary_of_le {n : Nat} {i : Int} (h : 0 ≤ i) (hn : i ≤ n) :
    boundary n i = i.toNat := by
  simp only [boundary, if_neg (Int.not_lt.mpr h)]
  omega

theorem size_items {xs : Array α} {i : Int} {n : Nat} (h : 0 ≤ i) (hn : i + n ≤ xs.size) :
    (items xs i (i + n)).size = n := by
  simp only [items, boundary_of_le h (by omega : i ≤ (xs.size : Int)),
    boundary_of_le (by omega : 0 ≤ i + (n : Int)) hn, Array.size_extract]
  omega

theorem getElem?_items {xs : Array α} {i : Int} {n k : Nat} (h : 0 ≤ i) (hn : i + n ≤ xs.size)
    (hk : k < n) : (items xs i (i + n))[k]? = xs[i.toNat + k]? := by
  rw [items, boundary_of_le h (by omega), boundary_of_le (by omega) hn, Array.getElem?_extract,
    if_pos (by omega)]

theorem size_replace {xs : Array α} {i : Int} {ys : List α} (h : 0 ≤ i)
    (hn : i + ys.length ≤ xs.size) : (replace xs i (i + ys.length) ys).size = xs.size := by
  simp only [replace, boundary_of_le h (by omega : i ≤ (xs.size : Int)),
    boundary_of_le (by omega : 0 ≤ i + (ys.length : Int)) hn, Array.size_append,
    Array.size_extract, List.size_toArray]
  omega

theorem getElem?_replace {xs : Array α} {i : Int} {ys : List α} (h : 0 ≤ i)
    (hn : i + ys.length ≤ xs.size) (k : Nat) :
    (replace xs i (i + ys.length) ys)[k]? =
      if i ≤ k ∧ (k : Int) < i + ys.length then ys[k - i.toNat]? else xs[k]? := by
  simp only [replace, boundary_of_le h (by omega : i ≤ (xs.size : Int)),
    boundary_of_le (by omega : 0 ≤ i + (ys.length : Int)) hn]
  have hm : max i.toNat (i + (ys.length : Int)).toNat = i.toNat + ys.length := by omega
  rw [hm]
  by_cases h1 : k < i.toNat
  · rw [Array.getElem?_append_left (by simp; omega), Array.getElem?_append_left (by simp; omega),
      if_neg (by omega)]
    simp only [Array.getElem?_extract]
    rw [if_pos (by omega), Nat.zero_add]
  · by_cases h2 : k < i.toNat + ys.length
    · rw [Array.getElem?_append_left (by simp; omega),
        Array.getElem?_append_right (by simp; omega), if_pos (by omega)]
      simp only [Array.size_extract, List.getElem?_toArray]
      congr 1
      omega
    · rw [Array.getElem?_append_right (by simp; omega), if_neg (by omega)]
      simp only [Array.size_append, Array.size_extract, List.size_toArray,
        Array.getElem?_extract]
      have hk : i.toNat + ys.length + (k - (min i.toNat xs.size - 0 + ys.length)) = k := by omega
      rw [hk]
      split
      · rfl
      · rw [Array.getElem?_eq_none (by omega)]

end ChipEight.Stretch
