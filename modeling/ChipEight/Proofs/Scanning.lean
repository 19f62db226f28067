import ChipEight.Event
import Mathlib.Data.List.Basic

namespace ChipEight

namespace Sprite

def places (s : Sprite) : List (Nat × Nat) := s.cells.map fun cell => (cell.1, cell.2.1)

def pixelsOf (s : Sprite) (y : Nat) : List Pixel :=
  (s.cells.filter fun cell => cell.2.1 = y).map fun cell => cell.2.2

/-- Pixels as a binary number, the most significant digit first. -/
def binary (pixels : List Pixel) : Nat := pixels.foldl (fun n p => 2 * n + p.bit) 0

def Precedes (a b : Nat × Nat) : Prop := a.2 < b.2 ∨ a.2 = b.2 ∧ a.1 < b.1

/-- A sprite shows the bytes of the memory from an address on, a byte a row. -/
structure Shows (s : Sprite) (m : Memory) (address : Int) (count : Nat) : Prop where
  height_eq : s.height = count
  ascending : s.places.Pairwise Precedes
  count_places : ∀ x y : Nat, s.places.count (x, y) = if x < 8 ∧ y < count then 1 else 0
  pixelAt_eq : ∀ cell ∈ s.cells, s.pixelAt cell.1 cell.2.1 = .ok cell.2.2
  row_eq : ∀ y < count, (s.pixelsOf y).length = 8 ∧
    ∃ byte, m.get (address + y) = .ok byte ∧ binary (s.pixelsOf y) = byte.toNat

variable {s : Sprite} {x y : Nat}

theorem Precedes.ne {a b : Nat × Nat} (h : Precedes a b) : a ≠ b := by
  rintro rfl
  rcases h with hrow | ⟨-, hcolumn⟩
  · exact Nat.lt_irrefl _ hrow
  · exact Nat.lt_irrefl _ hcolumn

theorem places_eq (s : Sprite) : s.places =
    (List.range s.height).flatMap fun y => (List.range width).map fun x => (x, y) := by
  simp only [places, cells, List.map_flatMap, List.map_map]
  rfl

theorem pairwise_places (s : Sprite) : s.places.Pairwise Precedes := by
  rw [places_eq, List.pairwise_flatMap]
  constructor
  · intro y _
    rw [List.pairwise_map]
    exact List.pairwise_lt_range.imp fun hlt => .inr ⟨rfl, hlt⟩
  · apply List.pairwise_lt_range.imp
    intro y y' hlt a ha b hb
    obtain ⟨x, -, rfl⟩ := List.mem_map.mp ha
    obtain ⟨x', -, rfl⟩ := List.mem_map.mp hb
    exact .inl hlt

theorem mem_places : (x, y) ∈ s.places ↔ x < 8 ∧ y < s.height := by
  simp only [places_eq, List.mem_flatMap, List.mem_range, List.mem_map, Prod.mk.injEq, width]
  constructor
  · rintro ⟨_, hy, _, hx, rfl, rfl⟩
    exact ⟨hx, hy⟩
  · rintro ⟨hx, hy⟩
    exact ⟨y, hy, x, hx, rfl, rfl⟩

theorem count_places (s : Sprite) (x y : Nat) :
    s.places.count (x, y) = if x < 8 ∧ y < s.height then 1 else 0 := by
  have hnodup : s.places.Nodup := s.pairwise_places.imp Precedes.ne
  rw [hnodup.count]
  exact if_congr mem_places rfl rfl

end Sprite

namespace Memory

variable {m : Memory} {l : Text.DigitLimit} {address : Int} {count : Nat}

section

variable (hlo : 0 ≤ address) (hhi : address + count ≤ m.size)

include hlo hhi

end

end Memory

end ChipEight
