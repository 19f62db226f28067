import ChipEight.Capacity
import ChipEight.Sprite

namespace ChipEight

/-- A picture on a torus: coordinates are taken modulo width and height. `dirty` tells a host that the
picture may have changed since the host last looked. -/
structure Framebuffer where
  width : Int
  height : Int
  rows : Array (Array Pixel)
  dirty : Bool
  deriving DecidableEq

namespace Framebuffer

def blankRows (width height : Int) : Array (Array Pixel) :=
  if height ≤ 0 then #[] else Array.replicate height.toNat (Array.replicate width.toNat .off)

def blank (width height : Int) : Framebuffer := ⟨width, height, blankRows width height, false⟩

/-- A screen of a size that was asked for. Columns need room only if there are rows. -/
def ofSize (width height : Int) : Except Fault Framebuffer :=
  match if height ≤ 0 then none else Capacity.fault? width with
  | some f => .error f
  | none => .ok (blank width height)

def clear (s : Framebuffer) : Framebuffer :=
  { s with rows := blankRows s.width s.height, dirty := true }

def markSeen (s : Framebuffer) : Framebuffer := { s with dirty := false }

def column (s : Framebuffer) (x : Int) : Nat := (x % s.width).toNat

def row (s : Framebuffer) (y : Int) : Nat := (y % s.height).toNat

def pixelAt (s : Framebuffer) (x y : Int) : Pixel :=
  ((s.rows[s.row y]?).bind (·[s.column x]?)).getD .off

def xorAt (s : Framebuffer) (x y : Int) (p : Pixel) : Framebuffer :=
  { s with
    rows := s.rows.modify (s.row y) fun r => r.modify (s.column x) (Pixel.xor p)
    dirty := true }

def erases (s : Framebuffer) (x y : Int) (p : Pixel) : Bool := (s.pixelAt x y).isOn && p.isOn

/-- Why no coordinate can be wrapped around the screen, if none can. -/
def wrappingFault? (s : Framebuffer) : Option Fault :=
  if s.height = 0 then some .emptyScreen
  else if s.height < 0 then some .indexOutside
  else if s.width = 0 then some .emptyScreen
  else if s.width < 0 then some .indexOutside
  else none

def checkedPixelAt (s : Framebuffer) (x y : Int) : Except Fault Pixel :=
  match s.wrappingFault? with
  | some f => .error f
  | none => .ok (s.pixelAt x y)

def checkedXorAt (s : Framebuffer) (x y : Int) (p : Pixel) : Except Fault (Framebuffer × Bool) :=
  match s.wrappingFault? with
  | some f => .error f
  | none => .ok (s.xorAt x y p, s.erases x y p)

/-- Composes a sprite with its upper left corner at `(x, y)`; also tells whether it erased a
pixel. -/
def stamp (s : Framebuffer) (x y : Int) (sprite : Sprite) : Framebuffer × Bool :=
  sprite.cells.foldl
    (fun (t, erased) (c, r, p) => (t.xorAt (x + c) (y + r) p, erased || t.erases (x + c) (y + r) p))
    (s, false)

def rowText (row : Array Pixel) : String := String.ofList (row.toList.map Pixel.mark)

/-- Column and row of every pixel that is on, row by row and from left to right. -/
def litCells (s : Framebuffer) : List (Nat × Nat) :=
  s.rows.toList.zipIdx.flatMap fun (r, y) =>
    r.toList.zipIdx.filterMap fun (p, x) => if p.isOn then some (x, y) else none

def text (s : Framebuffer) : String := "\n".intercalate (s.rows.toList.map rowText)

def Sized (s : Framebuffer) : Prop :=
  s.rows.size = s.height.toNat ∧ ∀ r ∈ s.rows, r.size = s.width.toNat

section

variable (s : Framebuffer) (x y : Int) (p : Pixel)

@[simp] theorem row_xorAt (y' : Int) : (s.xorAt x y p).row y' = s.row y' := rfl

@[simp] theorem column_xorAt (x' : Int) : (s.xorAt x y p).column x' = s.column x' := rfl

theorem rows_xorAt : (s.xorAt x y p).rows =
    s.rows.modify (s.row y) fun r => r.modify (s.column x) (Pixel.xor p) := rfl

theorem blankRows_eq (width height : Int) :
    blankRows width height = Array.replicate height.toNat (Array.replicate width.toNat .off) := by
  rw [blankRows]
  split
  · next h => simp [Int.toNat_of_nonpos h]
  · rfl

theorem sized_blank (width height : Int) : (blank width height).Sized := by
  constructor
  · simp [blank, blankRows_eq]
  · simp only [blank, blankRows_eq, Array.mem_replicate]
    rintro r ⟨_, rfl⟩
    simp

theorem sized_clear : s.clear.Sized := sized_blank s.width s.height

variable {s} in
theorem Sized.xorAt (h : s.Sized) : (s.xorAt x y p).Sized := by
  refine ⟨by simpa [Framebuffer.xorAt] using h.1, fun r hr => ?_⟩
  obtain ⟨i, hi, rfl⟩ := Array.mem_iff_getElem.mp hr
  simp only [Framebuffer.xorAt, Array.size_modify] at hi ⊢
  simp only [Array.getElem_modify]
  split
  · simpa using h.2 _ (Array.getElem_mem hi)
  · exact h.2 _ (Array.getElem_mem hi)

theorem stamp_induction {P : Framebuffer → Prop}
    (hp : ∀ t x y p, P t → P (t.xorAt x y p)) (h : P s) (sprite : Sprite) :
    P (s.stamp x y sprite).1 := by
  have hl : ∀ (cells : List (Nat × Nat × Pixel)) (t : Framebuffer) (erased : Bool), P t →
      P (cells.foldl (fun (t, erased) (c, r, p) =>
        (t.xorAt (x + c) (y + r) p, erased || t.erases (x + c) (y + r) p)) (t, erased)).1 := by
    intro cells
    induction cells with
    | nil => exact fun t _ ht => ht
    | cons cell cells ih => exact fun t _ ht => ih _ _ (hp t _ _ _ ht)
  exact hl sprite.cells s false h

theorem stamp_of_height_eq_zero {sprite : Sprite} (h : sprite.height = 0) :
    s.stamp x y sprite = (s, false) := by
  simp only [stamp, Sprite.cells, h, List.range_zero, List.flatMap_nil, List.foldl_nil]

theorem dirty_stamp {sprite : Sprite} (h : 0 < sprite.height) :
    (s.stamp x y sprite).1.dirty = true := by
  have hcell : (0, 0, Sprite.rowPixel (sprite.rows.getD 0 0) 0) ∈ sprite.cells :=
    (Sprite.mem_cells sprite 0 0 _).mpr ⟨by decide, h, rfl⟩
  obtain ⟨cell, cells, hc⟩ := List.exists_cons_of_ne_nil (List.ne_nil_of_mem hcell)
  rw [stamp, hc, List.foldl_cons]
  exact List.foldlRecOn cells _ (motive := fun t : Framebuffer × Bool => t.1.dirty = true) rfl
    fun _ _ _ _ => rfl

variable {s} in
theorem row_lt (h : 0 < s.height) (y : Int) : s.row y < s.height.toNat := by
  have h0 := Int.emod_nonneg y (Int.ne_of_gt h)
  have h1 := Int.emod_lt_of_pos y h
  simp only [row]
  omega

variable {s} in
theorem column_lt (h : 0 < s.width) (x : Int) : s.column x < s.width.toNat := by
  have h0 := Int.emod_nonneg x (Int.ne_of_gt h)
  have h1 := Int.emod_lt_of_pos x h
  simp only [column]
  omega

variable {s} in
theorem row_of_lt {y : Nat} (hy : y < s.height.toNat) : s.row y = y := by
  rw [row, Int.emod_eq_of_lt (by omega) (by omega)]
  rfl

variable {s} in
theorem column_of_lt {x : Nat} (hx : x < s.width.toNat) : s.column x = x := by
  rw [column, Int.emod_eq_of_lt (by omega) (by omega)]
  rfl

variable {s} in
/-- Composing a pixel changes the place that its coordinates are wrapped to, and no other. -/
theorem pixelAt_xorAt (h : s.Sized) (hw : 0 < s.width) (hh : 0 < s.height) (x' y' : Int) :
    (s.xorAt x y p).pixelAt x' y' =
      if s.column x = s.column x' ∧ s.row y = s.row y' then p.xor (s.pixelAt x' y')
      else s.pixelAt x' y' := by
  have hr : s.row y' < s.rows.size := by rw [h.1]; exact row_lt hh y'
  have hc : s.column x' < s.rows[s.row y'].size := by
    rw [h.2 _ (Array.getElem_mem hr)]
    exact column_lt hw x'
  simp only [pixelAt, row_xorAt, column_xorAt, rows_xorAt, Array.getElem?_modify,
    Array.getElem?_eq_getElem hr, Option.map_some]
  by_cases hy : s.row y = s.row y'
  · simp only [hy, ↓reduceIte, Option.bind_some, Array.getElem?_modify,
      Array.getElem?_eq_getElem hc, and_true]
    split <;> rfl
  · simp only [hy, ↓reduceIte, and_false, Option.bind_some]

end

end Framebuffer

end ChipEight
