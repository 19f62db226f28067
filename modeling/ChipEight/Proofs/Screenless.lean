import ChipEight.Proofs.Painting
import ChipEight.Window

namespace ChipEight.Window

variable {w : Window}

theorem getElem?_modifyFrom {α : Type} {n : Nat} (f : α → α) (start count : Nat)
    (xs : Vector α n) (i : Nat) : (modifyFrom f start count xs)[i]? =
      if start ≤ i ∧ i < start + count then xs[i]?.map f else xs[i]? := by
  induction count generalizing start xs with
  | zero => rw [modifyFrom, if_neg (by omega)]
  | succ count ih =>
    rw [modifyFrom, ih]
    simp only [Vector.getElem?_mk, Array.getElem?_modify, Vector.getElem?_toArray]
    by_cases hi : start = i
    · rw [if_neg (by omega), if_pos hi, if_pos (by omega)]
    · rw [if_neg hi]
      exact if_congr (by omega) rfl rfl

theorem getElem?_modifyBetween {α : Type} {n : Nat} (f : α → α) (start stop : Int)
    (xs : Vector α n) (i : Nat) : (modifyBetween f start stop xs)[i]? =
      if start ≤ i ∧ i < stop then xs[i]?.map f else xs[i]? := by
  rw [modifyBetween, getElem?_modifyFrom]
  by_cases hi : i < n
  · exact if_congr (by omega) rfl rfl
  · rw [Vector.getElem?_eq_none (Nat.le_of_not_lt hi)]
    simp

theorem inkAt?_of_nonneg (width height : Nat) (rows : Vector (Vector Ink width) height)
    (a b : Nat) : inkAt? ⟨width, height, rows⟩ a b = (rows[b]?).bind fun row => row[a]? :=
  if_pos ⟨Int.natCast_nonneg a, Int.natCast_nonneg b⟩

theorem inkAt?_paint (w : Window) (ink : Ink) (x y width height px py : Int) :
    (w.paint ink x y width height).inkAt? px py =
      if (x ≤ px ∧ px < x + width) ∧ y ≤ py ∧ py < y + height then
        (w.inkAt? px py).map fun _ => ink
      else w.inkAt? px py := by
  by_cases hp : 0 ≤ px ∧ 0 ≤ py
  · obtain ⟨a, rfl⟩ := Int.eq_ofNat_of_zero_le hp.1
    obtain ⟨b, rfl⟩ := Int.eq_ofNat_of_zero_le hp.2
    obtain ⟨columns, lines, rows⟩ := w
    rw [paint, inkAt?_of_nonneg, inkAt?_of_nonneg, getElem?_modifyBetween]
    cases rows[b]? with
    | none => simp
    | some row =>
      by_cases hy : y ≤ b ∧ b < y + height
      · simp only [hy, and_self, and_true, if_true, Option.map_some, Option.bind_some,
          getElem?_modifyBetween]
      · simp only [hy, and_false, if_false, Option.bind_some]
  · simp only [inkAt?, if_neg hp, Option.map_none, ite_self]

theorem hasSides (w : Window) : screenless.HasSides w w.width w.height := by
  intro px py
  by_cases hp : 0 ≤ px ∧ 0 ≤ py
  · obtain ⟨a, rfl⟩ := Int.eq_ofNat_of_zero_le hp.1
    obtain ⟨b, rfl⟩ := Int.eq_ofNat_of_zero_le hp.2
    obtain ⟨width, height, rows⟩ := w
    have hink : screenless.inkAt? ⟨width, height, rows⟩ a b = _ :=
      inkAt?_of_nonneg width height rows a b
    rw [hink]
    dsimp only
    by_cases hb : b < height
    · rw [Vector.getElem?_eq_getElem hb, Option.bind_some, isSome_getElem?]
      omega
    · rw [Vector.getElem?_eq_none (Nat.le_of_not_lt hb), Option.bind_none]
      simp only [Option.isSome_none, Bool.false_eq_true, false_iff]
      omega
  · have hink : screenless.inkAt? w px py = none := if_neg hp
    rw [hink]
    simp only [Option.isSome_none, Bool.false_eq_true, false_iff]
    omega

theorem eq_of_inkAt?_plain {width height : Nat} {ink v : Ink} {px py : Int}
    (h : (plain width height ink).inkAt? px py = some v) : v = ink := by
  by_cases hp : 0 ≤ px ∧ 0 ≤ py
  · rw [inkAt?, if_pos hp] at h
    obtain ⟨row, hrow, hv⟩ := Option.bind_eq_some_iff.mp h
    rw [(Vector.mem_replicate.mp (Vector.mem_of_getElem? hrow)).2] at hv
    exact (Vector.mem_replicate.mp (Vector.mem_of_getElem? hv)).2
  · rw [inkAt?, if_neg hp] at h
    cases h

theorem inkAt?_filled (w : Window) (ink : Ink) (px py : Int) :
    (plain w.width w.height ink).inkAt? px py = (w.inkAt? px py).map fun _ => ink := by
  have hsome : ((plain w.width w.height ink).inkAt? px py).isSome ↔ (w.inkAt? px py).isSome :=
    (hasSides (plain w.width w.height ink) px py).trans (hasSides w px py).symm
  cases hv : (plain w.width w.height ink).inkAt? px py with
  | some v =>
    obtain ⟨u, hu⟩ := Option.isSome_iff_exists.mp (hsome.mp (Option.isSome_of_mem hv))
    rw [hu, eq_of_inkAt?_plain hv, Option.map_some]
  | none =>
    rw [hv, Option.isSome_none, Bool.false_eq_true, false_iff,
      Option.not_isSome_iff_eq_none] at hsome
    rw [hsome, Option.map_none]

theorem hasSides_render (w : Window) (scale : Int) (s : Framebuffer) :
    screenless.HasSides (screenless.render scale w s) w.width w.height := by
  have hsides : (screenless.render scale w s).width = w.width ∧
      (screenless.render scale w s).height = w.height :=
    List.foldlRecOn s.litCells _
      (motive := fun v : Window => v.width = w.width ∧ v.height = w.height) ⟨rfl, rfl⟩
      fun _ hv _ _ => hv
  rw [← hsides.1, ← hsides.2]
  exact hasSides _

theorem lower32_of_lt {n : Int} (h : 0 ≤ n) (hn : n < 0x80000000) : lower32 n = n := by
  rw [lower32, Int.bmod_def]
  split <;> omega

theorem paintsExactly {x y width height : Int} (hx : 0 ≤ x ∧ x < 0x80000000)
    (hy : 0 ≤ y ∧ y < 0x80000000) (hw : 0 ≤ width ∧ width < 0x80000000)
    (hh : 0 ≤ height ∧ height < 0x80000000) : screenless.PaintsExactly x y width height := by
  intro w ink px py
  simp only [screenless]
  rw [lower32_of_lt hx.1 hx.2, lower32_of_lt hy.1 hy.2, lower32_of_lt hw.1 hw.2,
    lower32_of_lt hh.1 hh.2]
  exact inkAt?_paint w ink x y width height px py

/-- The display is exact as long as no coordinate in a window is too large. -/
theorem screenless_exact {scale : Int} (hlo : 0 ≤ scale) (hhi : 64 * scale < 0x80000000) :
    screenless.Exact scale where
  filled := inkAt?_filled
  painted x y hx hy := by
    have hside : ∀ n : Nat, n < 64 → 0 ≤ n * scale ∧ n * scale < 0x80000000 := by
      intro n hn
      have hmul : n * scale ≤ 64 * scale := Int.mul_le_mul_of_nonneg_right (by omega) hlo
      exact ⟨Int.mul_nonneg (by omega) hlo, by omega⟩
    exact paintsExactly (hside x hx) (hside y (by omega)) (by omega) (by omega)

end ChipEight.Window
