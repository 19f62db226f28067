import ChipEight.Text.Numeral

namespace ChipEight

abbrev Register := Fin 16

namespace Register

/-- VF, which instructions overwrite with a carry, a borrow, a shifted-out bit or a collision. -/
def flag : Register := 15

theorem toNat_lt {i : Int} (h : 0 ≤ i ∧ i < 16) : i.toNat < 16 := by omega

def ofInt? (i : Int) : Option Register :=
  if h : 0 ≤ i ∧ i < 16 then some ⟨i.toNat, toNat_lt h⟩ else none

def name (r : Register) : String := "V" ++ Text.hexCapital r.val

def all : List Register := List.finRange 16

def upTo (x : Register) : List Register := all.filter (· ≤ x)

@[simp] theorem ofInt?_val (r : Register) : ofInt? (r.val : Int) = some r := by
  simp only [ofInt?, Int.toNat_natCast]
  rw [dif_pos (by omega)]

theorem mem_upTo (x r : Register) : r ∈ upTo x ↔ r ≤ x := by
  simp [upTo, all]

end Register

end ChipEight
