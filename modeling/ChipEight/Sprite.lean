import ChipEight.Fault
import ChipEight.Pixel
import ChipEight.Stretch

namespace ChipEight

structure Sprite where
  rows : Array UInt8
  deriving DecidableEq

namespace Sprite

def width : Nat := 8

def height (s : Sprite) : Nat := s.rows.size

def rowPixel (row : UInt8) (x : Nat) : Pixel := .ofBool (row.toNat.testBit (7 - x))

def rowPixels (row : UInt8) : List Pixel := (List.range width).map (rowPixel row)

/-- Column, row and pixel of every cell, row by row and from left to right. -/
def cells (s : Sprite) : List (Nat × Nat × Pixel) :=
  (List.range s.height).flatMap fun y =>
    (List.range width).map fun x => (x, y, rowPixel (s.rows.getD y 0) x)

/-- The pixel at a place that a caller names. Rows may be counted from the end; columns on the left
of the sprite are off. -/
def pixelAt (s : Sprite) (x y : Int) : Except Fault Pixel :=
  match (Stretch.position? s.height y).bind (s.rows[·]?) with
  | none => .error .indexOutside
  | some row =>
    if (width : Int) ≤ x then .error .negativeShift
    else if x < 0 then .ok .off
    else .ok (rowPixel row x.toNat)

def text (s : Sprite) : List String :=
  s.rows.toList.map fun row => String.ofList ((rowPixels row).map Pixel.mark)

theorem mem_cells (s : Sprite) (x y : Nat) (p : Pixel) :
    (x, y, p) ∈ s.cells ↔ x < width ∧ y < s.height ∧ p = rowPixel (s.rows.getD y 0) x := by
  simp only [cells, List.mem_flatMap, List.mem_range, List.mem_map, Prod.mk.injEq]
  constructor
  · rintro ⟨_, hy, _, hx, rfl, rfl, rfl⟩
    exact ⟨hx, hy, rfl⟩
  · rintro ⟨hx, hy, rfl⟩
    exact ⟨y, hy, x, hx, rfl, rfl, rfl⟩

theorem nodup_cells (s : Sprite) : s.cells.Nodup := by
  have hrow : ∀ y, ((List.range width).map fun x =>
      (x, y, rowPixel (s.rows.getD y 0) x)).Nodup := fun y =>
    List.pairwise_map.mpr (List.nodup_range.imp fun hne he => hne (congrArg Prod.fst he))
  refine List.pairwise_flatMap.mpr ⟨fun y _ => hrow y, List.nodup_range.imp ?_⟩
  intro y y' hne cell hcell cell' hcell' he
  obtain ⟨x, -, rfl⟩ := List.mem_map.mp hcell
  obtain ⟨x', -, rfl⟩ := List.mem_map.mp hcell'
  exact hne (congrArg (fun c => c.2.1) he)

end Sprite

end ChipEight
