import ChipEight.Framebuffer
import ChipEight.Proofs.Raster

namespace ChipEight

structure Touch where
  x : Int
  y : Int
  pixel : Pixel
  deriving DecidableEq

namespace Framebuffer

open Raster

def compose (s : Framebuffer) : List Touch → Except Fault (Framebuffer × List Bool)
  | [] => .ok (s, [])
  | t :: ts => do
    let (u, erased) ← s.checkedXorAt t.x t.y t.pixel
    let (v, told) ← u.compose ts
    return (v, erased :: told)

/-- A pixel that is on, at a place that is wrapped to the given one. -/
def Strikes (s : Framebuffer) (x y : Int) (t : Touch) : Prop :=
  t.pixel = .on ∧ t.x ≡ x [ZMOD s.width] ∧ t.y ≡ y [ZMOD s.height]

instance (s : Framebuffer) (x y : Int) (t : Touch) : Decidable (s.Strikes x y t) :=
  inferInstanceAs (Decidable (_ ∧ _))

def strikeCount (s : Framebuffer) (x y : Int) (ts : List Touch) : Nat :=
  ts.countP fun t => s.Strikes x y t

/-- What composing pixels comes to: the screen afterwards, and what was told of each of them. -/
structure ObeysParity (s : Framebuffer) (ts : List Touch) (u : Framebuffer) (told : List Bool) :
    Prop where
  width : u.width = s.width
  height : u.height = s.height
  sized : u.Sized
  differs_iff : ∀ cx < s.width.toNat, ∀ cy < s.height.toNat,
    at? u.rows cx cy ≠ at? s.rows cx cy ↔ Odd (s.strikeCount cx cy ts)
  dirty : ts ≠ [] → u.dirty = true
  length_told : told.length = ts.length
  /-- A pixel that is on erases the pixel that is on just before. -/
  tells : ∀ before t after, ts = before ++ t :: after → ∃ v first,
    s.compose before = .ok (v, first) ∧ told[before.length]? = some (decide (t.pixel = .on ∧
      at? v.rows (t.x % s.width).toNat (t.y % s.height).toNat = some .on))
  reorders : ∀ us : List Touch, us.Perm ts →
    ∃ v told', s.compose us = .ok (v, told') ∧ v.rows = u.rows
  restores : ∀ us : List Touch, us.Perm (ts ++ ts) →
    ∃ v told', s.compose us = .ok (v, told') ∧ v.rows = s.rows

def touch (s : Framebuffer) (t : Touch) : Framebuffer := s.xorAt t.x t.y t.pixel

def touchAll (s : Framebuffer) (ts : List Touch) : Framebuffer := ts.foldl touch s

def erasures (s : Framebuffer) : List Touch → List Bool
  | [] => []
  | t :: ts => s.erases t.x t.y t.pixel :: (s.touch t).erasures ts

section

variable {s : Framebuffer} {x y : Int} (t : Touch) (ts us : List Touch)

@[simp] theorem touchAll_nil : s.touchAll [] = s := rfl

@[simp] theorem touchAll_cons : s.touchAll (t :: ts) = (s.touch t).touchAll ts := rfl

theorem touchAll_append : s.touchAll (ts ++ us) = (s.touchAll ts).touchAll us :=
  List.foldl_append

theorem width_touchAll : (s.touchAll ts).width = s.width := by
  induction ts generalizing s with
  | nil => rfl
  | cons t ts ih => exact ih

theorem height_touchAll : (s.touchAll ts).height = s.height := by
  induction ts generalizing s with
  | nil => rfl
  | cons t ts ih => exact ih

theorem Sized.touchAll (h : s.Sized) : (s.touchAll ts).Sized := by
  induction ts generalizing s with
  | nil => exact h
  | cons t ts ih => exact ih (h.xorAt t.x t.y t.pixel)

theorem dirty_touchAll (h : s.dirty = true) : (s.touchAll ts).dirty = true := by
  induction ts generalizing s with
  | nil => exact h
  | cons t ts ih => exact ih rfl

theorem length_erasures : (s.erasures ts).length = ts.length := by
  induction ts generalizing s with
  | nil => rfl
  | cons t ts ih => exact congrArg (· + 1) ih

theorem erasures_append : s.erasures (ts ++ us) = s.erasures ts ++ (s.touchAll ts).erasures us := by
  induction ts generalizing s with
  | nil => rfl
  | cons t ts ih => exact congrArg (s.erases t.x t.y t.pixel :: ·) ih

theorem compose_eq (hw : 0 < s.width) (hh : 0 < s.height) :
    s.compose ts = .ok (s.touchAll ts, s.erasures ts) := by
  induction ts generalizing s with
  | nil => rfl
  | cons t ts ih =>
    have hf : s.wrappingFault? = none := by
      rw [wrappingFault?, if_neg (by omega), if_neg (by omega), if_neg (by omega),
        if_neg (by omega)]
    have ht : s.checkedXorAt t.x t.y t.pixel = .ok (s.touch t, s.erases t.x t.y t.pixel) := by
      rw [checkedXorAt, hf]
      rfl
    have hts : (s.touch t).compose ts = _ := ih hw hh
    simp only [compose, ht, hts, bind, Except.bind]
    rfl

theorem column_eq_iff (hw : 0 < s.width) {x x' : Int} :
    s.column x = s.column x' ↔ x ≡ x' [ZMOD s.width] := by
  have h := Int.emod_nonneg x (Int.ne_of_gt hw)
  have h' := Int.emod_nonneg x' (Int.ne_of_gt hw)
  rw [column, column, Int.ModEq]
  omega

theorem row_eq_iff (hh : 0 < s.height) {y y' : Int} :
    s.row y = s.row y' ↔ y ≡ y' [ZMOD s.height] := by
  have h := Int.emod_nonneg y (Int.ne_of_gt hh)
  have h' := Int.emod_nonneg y' (Int.ne_of_gt hh)
  rw [row, row, Int.ModEq]
  omega

theorem erases_eq_decide (p : Pixel) :
    s.erases x y p = decide (p = .on ∧ s.pixelAt x y = .on) := by
  rw [erases]
  cases p <;> cases s.pixelAt x y <;> rfl

theorem pixelAt_eq_on_iff :
    s.pixelAt x y = .on ↔ at? s.rows (s.column x) (s.row y) = some .on := by
  rw [pixelAt, ← at?]
  cases at? s.rows (s.column x) (s.row y) <;> simp

theorem at?_eq_pixelAt (hs : s.Sized) {x y : Nat} (hx : x < s.width.toNat)
    (hy : y < s.height.toNat) : at? s.rows x y = some (s.pixelAt x y) := by
  obtain ⟨p, hp⟩ := exists_at? hs hx hy
  rw [pixelAt, column_of_lt hx, row_of_lt hy, ← at?, hp]
  rfl

theorem rows_eq_of_isOn_eq {u : Framebuffer} (hs : s.Sized) (hu : u.Sized)
    (hw : u.width = s.width) (hh : u.height = s.height)
    (h : ∀ x y : Nat, (u.pixelAt x y).isOn = (s.pixelAt x y).isOn) : u.rows = s.rows := by
  have hu' : HasSides u.rows s.width.toNat s.height.toNat := hw ▸ hh ▸ hu
  refine ext_at? hu' hs fun x hx y hy => ?_
  rw [at?_eq_pixelAt hs hx hy, at?_eq_pixelAt hu (hw ▸ hx) (hh ▸ hy), Pixel.isOn_inj.mp (h x y)]

variable (hs : s.Sized) (hw : 0 < s.width) (hh : 0 < s.height)

include hs hw hh

theorem isOn_pixelAt_touch : ((s.touch t).pixelAt x y).isOn =
    ((s.pixelAt x y).isOn ^^ decide (s.Strikes x y t)) := by
  simp only [touch, pixelAt_xorAt t.x t.y t.pixel hs hw hh, column_eq_iff hw, row_eq_iff hh]
  by_cases hxy : t.x ≡ x [ZMOD s.width] ∧ t.y ≡ y [ZMOD s.height]
  · rw [if_pos hxy, Pixel.isOn_xor, Bool.xor_comm]
    cases ht : t.pixel <;> simp [Strikes, hxy, ht, Pixel.isOn]
  · rw [if_neg hxy]
    simp [Strikes, hxy]

/-- The parity law: a place has changed if an odd number of pixels struck it. -/
theorem isOn_pixelAt_touchAll : ((s.touchAll ts).pixelAt x y).isOn =
    ((s.pixelAt x y).isOn ^^ decide (Odd (s.strikeCount x y ts))) := by
  -- the screen changes along the list, but not its sides, and so not what strikes a place
  induction ts generalizing s with
  | nil => simp [strikeCount]
  | cons t ts ih =>
    have hts : (((s.touch t).touchAll ts).pixelAt x y).isOn =
        (((s.touch t).pixelAt x y).isOn ^^ decide (Odd ((s.touch t).strikeCount x y ts))) :=
      ih (hs.xorAt t.x t.y t.pixel) hw hh
    have hcount : s.strikeCount x y (t :: ts) =
        (s.touch t).strikeCount x y ts + if s.Strikes x y t then 1 else 0 := by
      rw [strikeCount, List.countP_cons]
      simp only [decide_eq_true_eq]
      rfl
    rw [touchAll_cons, hts, isOn_pixelAt_touch t hs hw hh, hcount]
    by_cases ht : s.Strikes x y t
    · have hodd : decide (Odd ((s.touch t).strikeCount x y ts + 1)) =
          !decide (Odd ((s.touch t).strikeCount x y ts)) := by
        rw [← decide_not]
        exact decide_eq_decide.mpr Nat.odd_add_one
      rw [if_pos ht, decide_eq_true ht, hodd, Bool.xor_true, Bool.not_xor, Bool.xor_not]
    · rw [if_neg ht, decide_eq_false ht, Nat.add_zero, Bool.xor_false]

theorem rows_touchAll_of_odd_iff {us : List Touch}
    (h : ∀ x y : Nat, Odd (s.strikeCount x y us) ↔ Odd (s.strikeCount x y ts)) :
    (s.touchAll us).rows = (s.touchAll ts).rows := by
  refine rows_eq_of_isOn_eq (hs.touchAll ts) (hs.touchAll us)
    ((width_touchAll us).trans (width_touchAll ts).symm)
    ((height_touchAll us).trans (height_touchAll ts).symm) fun x y => ?_
  rw [isOn_pixelAt_touchAll us hs hw hh, isOn_pixelAt_touchAll ts hs hw hh,
    decide_eq_decide.mpr (h x y)]

theorem rows_touchAll_of_perm {us : List Touch} (h : us.Perm ts) :
    (s.touchAll us).rows = (s.touchAll ts).rows :=
  rows_touchAll_of_odd_iff ts hs hw hh fun x y => by
    rw [strikeCount, strikeCount, h.countP_eq]

theorem rows_touchAll_twice {us : List Touch} (h : us.Perm (ts ++ ts)) :
    (s.touchAll us).rows = s.rows :=
  rows_touchAll_of_odd_iff [] hs hw hh fun x y => by
    rw [strikeCount, strikeCount, h.countP_eq, List.countP_append, List.countP_nil]
    simp [← Nat.two_mul]

theorem differs_iff_odd {cx cy : Nat} (hx : cx < s.width.toNat) (hy : cy < s.height.toNat) :
    at? (s.touchAll ts).rows cx cy ≠ at? s.rows cx cy ↔ Odd (s.strikeCount cx cy ts) := by
  rw [at?_eq_pixelAt hs hx hy, at?_eq_pixelAt (hs.touchAll ts) ((width_touchAll ts).symm ▸ hx)
    ((height_touchAll ts).symm ▸ hy), ne_eq, Option.some.injEq, ← Pixel.isOn_inj,
    isOn_pixelAt_touchAll ts hs hw hh]
  by_cases h : Odd (s.strikeCount cx cy ts) <;> simp [h]

theorem obeysParity : s.ObeysParity ts (s.touchAll ts) (s.erasures ts) where
  width := width_touchAll ts
  height := height_touchAll ts
  sized := hs.touchAll ts
  differs_iff _ hx _ hy := differs_iff_odd ts hs hw hh hx hy
  dirty hts := by
    obtain ⟨t, ts, rfl⟩ := List.exists_cons_of_ne_nil hts
    exact dirty_touchAll ts rfl
  length_told := length_erasures ts
  tells before t after hts := by
    refine ⟨_, _, compose_eq before hw hh, ?_⟩
    have herases : (s.touchAll before).erases t.x t.y t.pixel = decide (t.pixel = .on ∧
        at? (s.touchAll before).rows (t.x % s.width).toNat (t.y % s.height).toNat = some .on) := by
      simp only [erases_eq_decide, pixelAt_eq_on_iff, column, row, width_touchAll, height_touchAll]
    rw [hts, erasures_append, List.getElem?_append_right (Nat.le_of_eq (length_erasures before)),
      length_erasures, Nat.sub_self, ← herases]
    rfl
  reorders us hus := ⟨_, _, compose_eq us hw hh, rows_touchAll_of_perm ts hs hw hh hus⟩
  restores us hus := ⟨_, _, compose_eq us hw hh, rows_touchAll_twice ts hs hw hh hus⟩

end

def Scattered (s : Framebuffer) (ts : List Touch) : Prop :=
  ts.Pairwise fun t u => ∀ x y, ¬ (s.Strikes x y t ∧ s.Strikes x y u)

section

variable {s : Framebuffer} {ts : List Touch}

theorem Scattered.odd_iff (h : s.Scattered ts) (x y : Int) :
    Odd (s.strikeCount x y ts) ↔ ∃ t ∈ ts, s.Strikes x y t := by
  induction ts with
  | nil => simp [strikeCount]
  | cons t ts ih =>
    obtain ⟨ht, hts⟩ := List.pairwise_cons.mp h
    simp only [List.mem_cons, exists_eq_or_imp]
    rw [strikeCount, List.countP_cons, ← strikeCount]
    by_cases hstrikes : s.Strikes x y t
    · have hnone : s.strikeCount x y ts = 0 :=
        List.countP_eq_zero.mpr fun u hu hsu => ht u hu x y ⟨hstrikes, of_decide_eq_true hsu⟩
      simp [hnone, hstrikes]
    · simp [hstrikes, ih hts]

theorem pixelAt_congr {x x' y y' : Int} (hx : x ≡ x' [ZMOD s.width])
    (hy : y ≡ y' [ZMOD s.height]) : s.pixelAt x y = s.pixelAt x' y' := by
  rw [pixelAt, pixelAt, column, column, row, row, hx, hy]

variable (hs : s.Sized) (hw : 0 < s.width) (hh : 0 < s.height)

include hs hw hh

theorem Scattered.any_erasures (h : s.Scattered ts) :
    (s.erasures ts).any id = true ↔ ∃ t ∈ ts, t.pixel = .on ∧ s.pixelAt t.x t.y = .on := by
  induction ts generalizing s with
  | nil => simp [erasures]
  | cons t ts ih =>
    obtain ⟨ht, hts⟩ := List.pairwise_cons.mp h
    -- where the others strike, the first pixel has changed nothing
    have hsame : ∀ u ∈ ts, u.pixel = .on →
        (s.touch t).pixelAt u.x u.y = s.pixelAt u.x u.y := by
      intro u hu hon
      have hn : ¬ s.Strikes u.x u.y t := fun hst => ht u hu u.x u.y ⟨hst, hon, rfl, rfl⟩
      apply Pixel.isOn_inj.mp
      rw [isOn_pixelAt_touch t hs hw hh, decide_eq_false hn, Bool.xor_false]
    have hrest := ih (hs.xorAt t.x t.y t.pixel) hw hh hts
    simp only [List.mem_cons, exists_eq_or_imp]
    rw [erasures, List.any_cons, Bool.or_eq_true, id, erases_eq_decide, decide_eq_true_eq]
    refine or_congr_right (hrest.trans (exists_congr fun u => ?_))
    constructor
    · rintro ⟨hu, hon, hat⟩
      exact ⟨hu, hon, (hsame u hu hon).symm.trans hat⟩
    · rintro ⟨hu, hon, hat⟩
      exact ⟨hu, hon, (hsame u hu hon).trans hat⟩

/-- Pixels that strike no place twice erase one if and only if some place that was on before all of
them is off behind all of them. -/
theorem Scattered.any_erasures_iff (h : s.Scattered ts) : (s.erasures ts).any id = true ↔
    ∃ cx cy, at? s.rows cx cy = some .on ∧ at? (s.touchAll ts).rows cx cy = some .off := by
  rw [h.any_erasures hs hw hh]
  constructor
  · rintro ⟨t, ht, hon, hat⟩
    have hx := column_lt hw t.x
    have hy := row_lt hh t.y
    have htx : t.x ≡ s.column t.x [ZMOD s.width] := (column_eq_iff hw).mp (column_of_lt hx).symm
    have hty : t.y ≡ s.row t.y [ZMOD s.height] := (row_eq_iff hh).mp (row_of_lt hy).symm
    have hbefore : s.pixelAt (s.column t.x) (s.row t.y) = .on :=
      (pixelAt_congr htx hty).symm.trans hat
    have hodd := (h.odd_iff _ _).mpr ⟨t, ht, hon, htx, hty⟩
    have hafter : (s.touchAll ts).pixelAt (s.column t.x) (s.row t.y) = .off := by
      apply Pixel.isOn_inj.mp
      rw [isOn_pixelAt_touchAll ts hs hw hh, hbefore, decide_eq_true hodd]
      rfl
    refine ⟨s.column t.x, s.row t.y, ?_, ?_⟩
    · rw [at?_eq_pixelAt hs hx hy, hbefore]
    · rw [at?_eq_pixelAt (hs.touchAll ts) ((width_touchAll ts).symm ▸ hx)
        ((height_touchAll ts).symm ▸ hy), hafter]
  · rintro ⟨cx, cy, hon, hoff⟩
    obtain ⟨hx, hy⟩ := lt_of_at? hs hon
    have hdiffers : at? (s.touchAll ts).rows cx cy ≠ at? s.rows cx cy := by
      rw [hon, hoff]
      decide
    obtain ⟨t, ht, htouch, htx, hty⟩ :=
      (h.odd_iff _ _).mp ((differs_iff_odd ts hs hw hh hx hy).mp hdiffers)
    rw [at?_eq_pixelAt hs hx hy, ← pixelAt_congr htx hty, Option.some.injEq] at hon
    exact ⟨t, ht, htouch, hon⟩

end

end Framebuffer

end ChipEight
