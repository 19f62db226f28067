import ChipEight.Display
import ChipEight.Proofs.Composing

namespace ChipEight

namespace Framebuffer

open Raster

variable {s : Framebuffer}

def onCount (s : Framebuffer) : Nat := Raster.count Pixel.isOn s.rows

def Covers (scale : Int) (cell : Nat × Nat) (px py : Int) : Prop :=
  (cell.1 * scale ≤ px ∧ px < cell.1 * scale + scale) ∧
    cell.2 * scale ≤ py ∧ py < cell.2 * scale + scale

instance (scale : Int) (cell : Nat × Nat) (px py : Int) : Decidable (Covers scale cell px py) :=
  inferInstanceAs (Decidable (_ ∧ _))

/-- What a picture puts at a place, where each of its pixels is a square of `scale` places a side. -/
def inkOver (s : Framebuffer) (scale px py : Int) : Ink :=
  if ∃ cell ∈ s.litCells, Covers scale cell px py then .foreground else .background

theorem mem_litCells {x y : Nat} : (x, y) ∈ s.litCells ↔ at? s.rows x y = some .on := by
  simp only [litCells, at?, List.mem_flatMap, List.mem_filterMap, Prod.exists,
    List.mem_zipIdx_iff_getElem?, Array.getElem?_toList, Option.bind_eq_some_iff]
  constructor
  · rintro ⟨r, y', hr, p, x', hp, hcell⟩
    split at hcell
    · next hpo =>
      cases hcell
      exact ⟨r, hr, Pixel.isOn_eq_true_iff.mp hpo ▸ hp⟩
    · cases hcell
  · rintro ⟨r, hr, hp⟩
    exact ⟨r, y, hr, .on, x, hp, rfl⟩

theorem length_litCells (s : Framebuffer) : s.litCells.length = s.onCount := by
  have hrows := congrArg (List.map (Array.countP Pixel.isOn))
    (List.zipIdx_map_fst 0 s.rows.toList)
  rw [List.map_map] at hrows
  rw [onCount, count_eq_sum_rows, ← hrows, litCells, List.length_flatMap]
  refine congrArg List.sum (List.map_congr_left ?_)
  rintro ⟨r, y⟩ -
  rw [List.length_filterMap_eq_countP]
  calc _
    _ = r.toList.zipIdx.countP (Pixel.isOn ∘ Prod.fst) := List.countP_congr fun q _ => by
      cases h : q.1.isOn <;> simp [h]
    _ = (r.toList.zipIdx.map Prod.fst).countP Pixel.isOn := List.countP_map.symm
    _ = r.countP Pixel.isOn := by rw [List.zipIdx_map_fst, Array.countP_toList]

theorem litCells_blank (width height : Int) : (blank width height).litCells = [] := by
  rw [List.eq_nil_iff_forall_not_mem]
  rintro ⟨x, y⟩ hlit
  rw [mem_litCells, blank, blankRows_eq] at hlit
  have hoff := at?_replicate hlit
  cases hoff

theorem at?_eq_some_on_iff {x y : Nat} (hx : x < s.width.toNat) (hy : y < s.height.toNat) :
    at? s.rows x y = some .on ↔ (s.pixelAt x y).isOn = true := by
  rw [Pixel.isOn_eq_true_iff, pixelAt_eq_on_iff, column_of_lt hx, row_of_lt hy]

theorem onCount_eq_sum (hs : s.Sized) : s.onCount =
    ∑ y ∈ Finset.range s.height.toNat, ∑ x ∈ Finset.range s.width.toNat,
      (s.pixelAt x y).isOn.toNat :=
  count_eq_sum (f := fun x y => (s.pixelAt x y).isOn) hs fun x y p hp => by
    obtain ⟨hx, hy⟩ := lt_of_at? hs hp
    rw [at?_eq_pixelAt hs hx hy] at hp
    cases hp
    rfl

theorem lt_of_mem_litCells (hs : s.Sized) {cell : Nat × Nat} (h : cell ∈ s.litCells) :
    cell.1 < s.width.toNat ∧ cell.2 < s.height.toNat :=
  lt_of_at? hs (mem_litCells.mp h)

theorem eq_of_between {a b c k : Nat} (hc : c < k)
    (h : (b : Int) * k ≤ (a * k + c : Nat) ∧ ((a * k + c : Nat) : Int) < b * k + k) : b = a := by
  have hk : 0 < k := Nat.lt_of_le_of_lt (Nat.zero_le c) hc
  rw [← Int.natCast_mul] at h
  calc b
    _ = (a * k + c) / k := ((Nat.div_eq_iff hk).mpr (by omega)).symm
    _ = a := (Nat.div_eq_iff hk).mpr (by omega)

theorem inkOver_eq {x y k dx dy : Nat} (hx : x < s.width.toNat) (hy : y < s.height.toNat)
    (hdx : dx < k) (hdy : dy < k) : s.inkOver k (x * k + dx : Nat) (y * k + dy : Nat) =
      if (s.pixelAt x y).isOn then .foreground else .background := by
  have hlit := mem_litCells.trans (at?_eq_some_on_iff hx hy)
  refine if_congr (Iff.trans ⟨?_, fun hmem => ⟨(x, y), hmem, ?_⟩⟩ hlit) rfl rfl
  · -- a square that covers the place belongs to the pixel itself
    rintro ⟨⟨x', y'⟩, hmem, hpx, hpy⟩
    rwa [← eq_of_between hdx hpx, ← eq_of_between hdy hpy]
  · rw [Covers]
    push_cast
    omega

end Framebuffer

namespace Display

variable {Surface Refusal : Type} {d : Display Surface Refusal} {scale : Int} {w : Surface}
variable {s : Framebuffer}

/-- A rectangle is painted exactly, as far as it lies in the window. -/
def PaintsExactly (d : Display Surface Refusal) (x y width height : Int) : Prop :=
  ∀ w ink px py, d.inkAt? (d.painted w ink x y width height) px py =
    if (x ≤ px ∧ px < x + width) ∧ y ≤ py ∧ py < y + height then
      (d.inkAt? w px py).map fun _ => ink
    else d.inkAt? w px py

/-- What is assumed of a display: windows are filled all over, and the squares of the pixels of a
screen are painted exactly. -/
structure Exact (d : Display Surface Refusal) (scale : Int) : Prop where
  filled : ∀ w ink px py, d.inkAt? (d.filled w ink) px py = (d.inkAt? w px py).map fun _ => ink
  painted : ∀ x y : Nat, x < 64 → y < 32 → d.PaintsExactly (x * scale) (y * scale) scale scale

def HasSides (d : Display Surface Refusal) (w : Surface) (width height : Int) : Prop :=
  ∀ px py, (d.inkAt? w px py).isSome ↔ (0 ≤ px ∧ px < width) ∧ 0 ≤ py ∧ py < height

/-- A window shows every pixel of a picture as a square of `k` places a side, and has no other
places. -/
structure Enlarges (d : Display Surface Refusal) (w : Surface) (s : Framebuffer) (k : Nat) :
    Prop where
  sides : d.HasSides w (s.width.toNat * k : Nat) (s.height.toNat * k : Nat)
  inkAt? : ∀ x < s.width.toNat, ∀ y < s.height.toNat, ∀ dx < k, ∀ dy < k,
    d.inkAt? w (x * k + dx : Nat) (y * k + dy : Nat) =
      some (if (s.pixelAt x y).isOn then .foreground else .background)

def lit (d : Display Surface Refusal) (w : Surface) : Set (Int × Int) :=
  {p | d.inkAt? w p.1 p.2 = some .foreground}

def placeOf (k : Nat) (cell offset : Nat × Nat) : Int × Int :=
  ((cell.1 * k + offset.1 : Nat), (cell.2 * k + offset.2 : Nat))

def litParts (s : Framebuffer) (k : Nat) : Finset ((Nat × Nat) × Nat × Nat) :=
  ((Finset.range s.width.toNat ×ˢ Finset.range s.height.toNat).filter fun cell =>
    (s.pixelAt cell.1 cell.2).isOn) ×ˢ (Finset.range k ×ˢ Finset.range k)

theorem inkAt?_foldl_paintPixel (hd : d.Exact scale) {cells : List (Nat × Nat)}
    (hcells : ∀ cell ∈ cells, cell.1 < 64 ∧ cell.2 < 32) (w : Surface) (px py : Int) :
    d.inkAt? (cells.foldl (fun v (x, y) => d.paintPixel scale v x y) w) px py =
      if ∃ cell ∈ cells, Framebuffer.Covers scale cell px py then
        (d.inkAt? w px py).map fun _ => .foreground
      else d.inkAt? w px py := by
  induction cells generalizing w with
  | nil => simp
  | cons cell cells ih =>
    obtain ⟨x, y⟩ := cell
    obtain ⟨hx, hy⟩ := hcells (x, y) List.mem_cons_self
    have hfirst : d.inkAt? (d.paintPixel scale w x y) px py =
        if Framebuffer.Covers scale (x, y) px py then (d.inkAt? w px py).map fun _ => .foreground
        else d.inkAt? w px py := hd.painted x y hx hy w .foreground px py
    rw [List.foldl_cons, ih fun c hc => hcells c (List.mem_cons_of_mem _ hc), hfirst]
    by_cases hc : Framebuffer.Covers scale (x, y) px py <;>
      simp only [List.exists_mem_cons_iff, hc, true_or, false_or, if_true, if_false,
        Option.map_map, Function.comp_def, ite_self]

theorem inkAt?_render (hd : d.Exact scale)
    (hs : ∀ cell ∈ s.litCells, cell.1 < 64 ∧ cell.2 < 32) (w : Surface) (px py : Int) :
    d.inkAt? (d.render scale w s) px py =
      (d.inkAt? w px py).map fun _ => s.inkOver scale px py := by
  rw [render, inkAt?_foldl_paintPixel hd hs, hd.filled, Framebuffer.inkOver]
  split
  · rw [Option.map_map]
    rfl
  · rfl

theorem exists_place_eq {n k : Nat} {p : Int} (h : 0 ≤ p ∧ p < (n * k : Nat)) :
    ∃ x < n, ∃ dx < k, p = (x * k + dx : Nat) := by
  obtain ⟨a, rfl⟩ := Int.eq_ofNat_of_zero_le h.1
  have ha : a < k * n := by
    rw [Nat.mul_comm]
    omega
  have hk : 0 < k := Nat.pos_of_mul_pos_right (Nat.lt_of_le_of_lt (Nat.zero_le a) ha)
  refine ⟨a / k, Nat.div_lt_of_lt_mul ha, a % k, Nat.mod_lt a hk, ?_⟩
  rw [Nat.div_add_mod']

theorem mem_litParts {k : Nat} {cell offset : Nat × Nat} : (cell, offset) ∈ litParts s k ↔
    ((cell.1 < s.width.toNat ∧ cell.2 < s.height.toNat) ∧ (s.pixelAt cell.1 cell.2).isOn = true) ∧
      offset.1 < k ∧ offset.2 < k := by
  simp only [litParts, Finset.mem_product, Finset.mem_filter, Finset.mem_range]

theorem card_litParts (hs : s.Sized) (k : Nat) : (litParts s k).card = k ^ 2 * s.onCount := by
  rw [litParts, Finset.card_product, Finset.card_product, Finset.card_range, Finset.card_filter,
    Finset.sum_product_right, Framebuffer.onCount_eq_sum hs, ← Nat.pow_two, Nat.mul_comm]
  refine congrArg (k ^ 2 * ·) (Finset.sum_congr rfl fun y _ => Finset.sum_congr rfl fun x _ => ?_)
  cases (s.pixelAt x y).isOn <;> rfl

theorem placeOf_injOn (s : Framebuffer) (k : Nat) :
    Set.InjOn (fun part : (Nat × Nat) × Nat × Nat => placeOf k part.1 part.2) (litParts s k) := by
  rintro ⟨⟨x, y⟩, dx, dy⟩ h ⟨⟨x', y'⟩, dx', dy'⟩ h' he
  obtain ⟨-, hdx, hdy⟩ := mem_litParts.mp h
  obtain ⟨-, hdx', hdy'⟩ := mem_litParts.mp h'
  simp only [placeOf, Prod.mk.injEq, Int.natCast_inj] at he hdx hdy hdx' hdy'
  obtain ⟨hx, hy⟩ := he
  obtain rfl : x' = x := Framebuffer.eq_of_between hdx (by rw [hx]; push_cast; omega)
  obtain rfl : y' = y := Framebuffer.eq_of_between hdy (by rw [hy]; push_cast; omega)
  simp only [Prod.mk.injEq, true_and]
  omega

variable {k : Nat}

theorem Enlarges.lit_eq (h : d.Enlarges w s k) : d.lit w =
    ((litParts s k).image fun part => placeOf k part.1 part.2 : Finset (Int × Int)) := by
  ext ⟨px, py⟩
  simp only [lit, Set.mem_ofPred_eq, Finset.coe_image, Set.mem_image, Finset.mem_coe]
  constructor
  · intro hink
    have hplace := (h.sides px py).mp (by rw [hink]; rfl)
    obtain ⟨x, hx, dx, hdx, rfl⟩ := exists_place_eq hplace.1
    obtain ⟨y, hy, dy, hdy, rfl⟩ := exists_place_eq hplace.2
    rw [h.inkAt? x hx y hy dx hdx dy hdy] at hink
    have hon : (s.pixelAt x y).isOn = true := by
      by_contra hoff
      rw [if_neg hoff] at hink
      cases hink
    exact ⟨((x, y), dx, dy), mem_litParts.mpr ⟨⟨⟨hx, hy⟩, hon⟩, hdx, hdy⟩, rfl⟩
  · rintro ⟨⟨⟨x, y⟩, dx, dy⟩, hpart, he⟩
    obtain ⟨⟨⟨hx, hy⟩, hon⟩, hdx, hdy⟩ := mem_litParts.mp hpart
    cases he
    exact (h.inkAt? x hx y hy dx hdx dy hdy).trans (congrArg some (if_pos hon))

theorem HasSides.ncard_lit_le {width height : Nat} (h : d.HasSides w width height) :
    (d.lit w).ncard ≤ width * height := by
  have hsub : d.lit w ⊆
      (Finset.Ico (0 : Int) width ×ˢ Finset.Ico (0 : Int) height : Finset (Int × Int)) := by
    rintro ⟨px, py⟩ hp
    rw [lit, Set.mem_ofPred_eq] at hp
    have hplace := (h px py).mp (by rw [hp]; rfl)
    simp only [Finset.mem_coe, Finset.mem_product, Finset.mem_Ico]
    exact hplace
  have hle := Set.ncard_le_ncard hsub (Finset.finite_toSet _)
  rwa [Set.ncard_coe_finset, Finset.card_product, Int.card_Ico, Int.card_Ico] at hle

theorem Enlarges.ncard_lit (h : d.Enlarges w s k) (hs : s.Sized) :
    (d.lit w).ncard = k ^ 2 * s.onCount := by
  rw [h.lit_eq, Set.ncard_coe_finset, Finset.card_image_of_injOn (placeOf_injOn s k),
    card_litParts hs]

end Display

end ChipEight
