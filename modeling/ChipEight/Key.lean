import ChipEight.Text.Numeral

namespace ChipEight

abbrev Key := Fin 16

namespace Key

def ofInt? (i : Int) : Option Key :=
  if h : 0 ≤ i ∧ i < 16 then some ⟨i.toNat, by omega⟩ else none

def face (k : Key) : String := Text.hexCapital k.val

/-- The key whose face is `c`, a digit or a letter from A to F in either case. -/
def ofChar? (c : Char) : Option Key :=
  if '0' ≤ c ∧ c ≤ '9' then some (Fin.ofNat 16 (c.toNat - '0'.toNat))
  else if 'a' ≤ c ∧ c ≤ 'f' then some (Fin.ofNat 16 (c.toNat - 'a'.toNat + 10))
  else if 'A' ≤ c ∧ c ≤ 'F' then some (Fin.ofNat 16 (c.toNat - 'A'.toNat + 10))
  else none

def ofText? (s : String) : Option Key :=
  match s.toList with
  | [c] => ofChar? c
  | _ => none

def all : List Key := List.finRange 16

@[simp] theorem ofInt?_val (k : Key) : ofInt? (k.val : Int) = some k := by
  simp only [ofInt?, Int.toNat_natCast]
  rw [dif_pos (by omega)]

theorem ofInt?_eq_none_iff (i : Int) : ofInt? i = none ↔ i < 0 ∨ 16 ≤ i := by
  simp only [ofInt?]
  split <;> simp <;> omega

theorem val_of_ofInt? {i : Int} {k : Key} (h : ofInt? i = some k) : (k.val : Int) = i := by
  simp only [ofInt?] at h
  split at h
  · cases h
    simp only
    omega
  · cases h

theorem ofText?_face (k : Key) : ofText? k.face = some k := by
  decide +revert +kernel

end Key

end ChipEight
