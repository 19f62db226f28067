import ChipEight.Proofs.Composing
import ChipEight.Proofs.Invariant
import ChipEight.Proofs.Loading

namespace ChipEight

namespace Sprite

def pixel (sprite : Sprite) (c r : Nat) : Pixel := rowPixel (sprite.rows.getD r 0) c

def touch (x y : Int) (cell : Nat × Nat × Pixel) : Touch :=
  ⟨x + cell.1, y + cell.2.1, cell.2.2⟩

def touches (sprite : Sprite) (x y : Int) : List Touch := sprite.cells.map (touch x y)

theorem mem_touches {sprite : Sprite} {x y : Int} {t : Touch} : t ∈ sprite.touches x y ↔
    ∃ c r : Nat, c < 8 ∧ r < sprite.height ∧ t = ⟨x + c, y + r, sprite.pixel c r⟩ := by
  simp only [touches, touch, List.mem_map, Prod.exists, mem_cells]
  constructor
  · rintro ⟨c, r, p, ⟨hc, hr, rfl⟩, rfl⟩
    exact ⟨c, r, hc, hr, rfl⟩
  · rintro ⟨c, r, hc, hr, rfl⟩
    exact ⟨c, r, _, ⟨hc, hr, rfl⟩, rfl⟩

end Sprite

namespace Framebuffer

open Raster

variable {s : Framebuffer} {sprite : Sprite} {x y : Int}

theorem foldl_touch (x y : Int) (cells : List (Nat × Nat × Pixel)) (s : Framebuffer)
    (erased : Bool) : cells.foldl (fun a cell => (a.1.touch (Sprite.touch x y cell),
      a.2 || a.1.erases (x + cell.1) (y + cell.2.1) cell.2.2)) (s, erased) =
    (s.touchAll (cells.map (Sprite.touch x y)),
      erased || (s.erasures (cells.map (Sprite.touch x y))).any id) := by
  induction cells generalizing s erased with
  | nil => simp [erasures]
  | cons cell cells ih =>
    rw [List.foldl_cons, ih, Bool.or_assoc]
    rfl

theorem stamp_eq (s : Framebuffer) (x y : Int) (sprite : Sprite) : s.stamp x y sprite =
    (s.touchAll (sprite.touches x y), (s.erasures (sprite.touches x y)).any id) :=
  foldl_touch x y sprite.cells s false

theorem eq_of_modEq {a z n : Int} {c d : Nat} (hc : c < n) (hd : d < n)
    (h : a + c ≡ z [ZMOD n]) (h' : a + d ≡ z [ZMOD n]) : c = d := by
  have hcd : (c : Int) % n = d % n := (h.trans h'.symm).add_left_cancel' a
  rw [Int.emod_eq_of_lt (by omega) hc, Int.emod_eq_of_lt (by omega) hd] at hcd
  omega

theorem scattered_touches (hw : 8 ≤ s.width) (hh : sprite.height ≤ s.height) :
    s.Scattered (sprite.touches x y) := by
  refine List.pairwise_map.mpr (sprite.nodup_cells.pairwise_of_forall_ne ?_)
  rintro ⟨c, r, p⟩ hcell ⟨d, q, p'⟩ hcell' hne x' y' ⟨⟨-, hx, hy⟩, ⟨-, hx', hy'⟩⟩
  obtain ⟨hc, hr, rfl⟩ := (sprite.mem_cells _ _ _).mp hcell
  obtain ⟨hd, hq, rfl⟩ := (sprite.mem_cells _ _ _).mp hcell'
  rw [Sprite.width] at hc hd
  have hcd : c = d := eq_of_modEq (by omega) (by omega) hx hx'
  have hrq : r = q := eq_of_modEq (by omega) (by omega) hy hy'
  rw [hcd, hrq] at hne
  exact hne rfl

section

variable (hs : s.Sized) (hw : 8 ≤ s.width) (hpos : 0 < s.height) (hh : sprite.height ≤ s.height)

include hs hw hpos hh

/-- A sprite turns a pixel off if one that was on before all of it is off behind all of it. -/
theorem stamp_erases_iff : (s.stamp x y sprite).2 = true ↔ ∃ cx cy,
    at? s.rows cx cy = some .on ∧ at? (s.stamp x y sprite).1.rows cx cy = some .off := by
  rw [stamp_eq]
  exact (scattered_touches hw hh).any_erasures_iff hs (by omega) hpos

variable {cx cy : Nat} (hcx : cx < s.width.toNat) (hcy : cy < s.height.toNat)

include hcx hcy

theorem at?_stamp_of_lands {c r : Nat} (hc : c < 8) (hr : r < sprite.height)
    (hx : x + c ≡ cx [ZMOD s.width]) (hy : y + r ≡ cy [ZMOD s.height]) :
    ∃ p, at? s.rows cx cy = some p ∧
      at? (s.stamp x y sprite).1.rows cx cy = some (p.xor (sprite.pixel c r)) := by
  -- no other pixel of the sprite comes to lie there, so the count is that of a single one
  have hodd : decide (Odd (s.strikeCount cx cy (sprite.touches x y))) =
      (sprite.pixel c r).isOn := by
    rw [Bool.eq_iff_iff, decide_eq_true_eq, Pixel.isOn_eq_true_iff,
      (scattered_touches hw hh).odd_iff]
    constructor
    · rintro ⟨t, ht, hon, htx, hty⟩
      obtain ⟨d, q, hd, hq, rfl⟩ := Sprite.mem_touches.mp ht
      have hdc : d = c := eq_of_modEq (by omega) (by omega) htx hx
      have hqr : q = r := eq_of_modEq (by omega) (by omega) hty hy
      rw [← hdc, ← hqr]
      exact hon
    · intro hon
      exact ⟨_, Sprite.mem_touches.mpr ⟨c, r, hc, hr, rfl⟩, hon, hx, hy⟩
  have hafter : (s.touchAll (sprite.touches x y)).pixelAt cx cy =
      (s.pixelAt cx cy).xor (sprite.pixel c r) := by
    apply Pixel.isOn_inj.mp
    rw [isOn_pixelAt_touchAll _ hs (by omega) hpos, hodd, Pixel.isOn_xor]
  refine ⟨_, at?_eq_pixelAt hs hcx hcy, ?_⟩
  rw [stamp_eq, at?_eq_pixelAt (hs.touchAll _) ((width_touchAll _).symm ▸ hcx)
    ((height_touchAll _).symm ▸ hcy), hafter]

theorem at?_stamp_of_not (h : ∀ c r : Nat, c < 8 → r < sprite.height →
    ¬ (x + c ≡ cx [ZMOD s.width] ∧ y + r ≡ cy [ZMOD s.height])) :
    at? (s.stamp x y sprite).1.rows cx cy = at? s.rows cx cy := by
  rw [stamp_eq]
  by_contra hdiffers
  have hodd := (differs_iff_odd _ hs (by omega) hpos hcx hcy).mp hdiffers
  obtain ⟨t, ht, -, htx, hty⟩ := ((scattered_touches hw hh).odd_iff _ _).mp hodd
  obtain ⟨c, r, hc, hr, rfl⟩ := Sprite.mem_touches.mp ht
  exact h c r hc hr ⟨htx, hty⟩

end

end Framebuffer

namespace Machine

open Raster

variable {m : Machine} {x y : Register} {n : Nat}

def spriteBit (m : Machine) (col row : Nat) : Bool :=
  (m.memory.byteAt (m.index.toNat + row)).toNat.testBit (7 - col)

def sprite (m : Machine) (n : Nat) : Sprite :=
  ⟨Stretch.items m.memory.bytes m.index (m.index + n)⟩

def stamped (m : Machine) (X Y : UInt8) (sprite : Sprite) : Machine :=
  { m with screen := (m.screen.stamp X.toNat Y.toNat sprite).1 }.setFlag
    (m.screen.stamp X.toNat Y.toNat sprite).2

theorem screen_stamped (m : Machine) (X Y : UInt8) (sprite : Sprite) :
    (m.stamped X Y sprite).screen = m.screen.touchAll (sprite.touches X.toNat Y.toNat) :=
  congrArg Prod.fst (m.screen.stamp_eq X.toNat Y.toNat sprite)

theorem registers_stamped (m : Machine) (X Y : UInt8) (sprite : Sprite) (r : Register) :
    (m.stamped X Y sprite).registers[r] = if Register.flag = r
      then if (m.screen.stamp X.toNat Y.toNat sprite).2 then 1 else 0 else m.registers[r] :=
  registers_setFlag _ _ r

theorem height_sprite (hi : 0 ≤ m.index) (hn : m.index + n ≤ m.memory.size) :
    (m.sprite n).height = n :=
  Stretch.size_items hi hn

theorem pixel_sprite (hi : 0 ≤ m.index) (hn : m.index + n ≤ m.memory.size) {row : Nat}
    (hrow : row < n) (col : Nat) :
    (m.sprite n).pixel col row = .ofBool (m.spriteBit col row) := by
  rw [Sprite.pixel, sprite, Array.getD_eq_getD_getElem?, Stretch.getElem?_items hi hn hrow,
    ← Array.getD_eq_getD_getElem?]
  rfl

theorem drawSprite_eq (X Y : UInt8) (hi : 0 ≤ m.index) (hn : m.index + n ≤ m.memory.size) :
    m.drawSprite X Y n = .done (m.stamped X Y (m.sprite n)) := by
  obtain ⟨screen, erased, hs, he⟩ := drawSprite_of_le X Y hi hn
  rw [he, stamped, sprite, hs]

/-- A sprite of `n` rows at I is drawn with its upper left corner at column Vx and row Vy. -/
structure Stamps (m : Machine) (x y : Register) (n : Nat) (after : Machine) : Prop where
  sides : HasSides after.screen.rows 64 32
  inside : ∀ col < 8, ∀ row < n, ∀ cx cy, (m.registers[x].toNat + col) % 64 = cx →
    (m.registers[y].toNat + row) % 32 = cy → ∃ p, at? m.screen.rows cx cy = some p ∧
      at? after.screen.rows cx cy = some (p.xor (.ofBool (m.spriteBit col row)))
  outside : ∀ cx < 64, ∀ cy < 32,
    (∀ col < 8, ∀ row < n, ¬ ((m.registers[x].toNat + col) % 64 = cx ∧
      (m.registers[y].toNat + row) % 32 = cy)) →
    at? after.screen.rows cx cy = at? m.screen.rows cx cy
  flag_eq_one_iff : after.registers[Register.flag] = 1 ↔
    ∃ cx cy, at? m.screen.rows cx cy = some .on ∧ at? after.screen.rows cx cy = some .off
  flag_eq : after.registers[Register.flag] = 0 ∨ after.registers[Register.flag] = 1
  registers : ∀ r : Register, r ≠ Register.flag → after.registers[r] = m.registers[r]
  index_eq : after.index = m.index
  memory_eq : after.memory = m.memory
  of_zero : n = 0 → after.screen = m.screen ∧ after.registers[Register.flag] = 0

theorem stamps_stamped (h : m.WellFormed) (hlow : n < 16) (hn : m.index + n ≤ 4096) :
    m.Stamps x y n (m.stamped m.registers[x] m.registers[y] (m.sprite n)) := by
  have hsize : m.index + n ≤ m.memory.size := by rwa [h.memory_size]
  have hrows := height_sprite h.index_nonneg hsize
  have hwidth := h.screen_width
  have hlines := h.screen_height
  have hs := h.screen_sized
  have hw : 8 ≤ m.screen.width := by omega
  have hpos : 0 < m.screen.height := by omega
  have hh : (m.sprite n).height ≤ m.screen.height := by omega
  exact {
    sides := by
      have hsides := hs.touchAll ((m.sprite n).touches m.registers[x].toNat m.registers[y].toNat)
      rw [Framebuffer.Sized, Framebuffer.width_touchAll, Framebuffer.height_touchAll, hwidth,
        hlines] at hsides
      rwa [← screen_stamped] at hsides
    inside := fun col hcol row hrow cx cy hcx hcy => by
      rw [← pixel_sprite h.index_nonneg hsize hrow]
      refine Framebuffer.at?_stamp_of_lands hs hw hpos hh (by omega) (by omega) hcol
        (hrows.symm ▸ hrow) ?_ ?_
      · rw [hwidth, Int.ModEq]
        omega
      · rw [hlines, Int.ModEq]
        omega
    outside := fun cx hcx cy hcy hnot => by
      refine Framebuffer.at?_stamp_of_not hs hw hpos hh (by omega) (by omega) ?_
      rintro col row hcol hrow ⟨hx, hy⟩
      rw [hwidth, Int.ModEq] at hx
      rw [hlines, Int.ModEq] at hy
      exact hnot col hcol row (hrows ▸ hrow) ⟨by omega, by omega⟩
    flag_eq_one_iff := by
      rw [registers_stamped, if_pos rfl]
      refine Iff.trans ?_ (Framebuffer.stamp_erases_iff hs hw hpos hh)
      split
      · next h => exact iff_of_true rfl h
      · next h => exact iff_of_false (by decide) h
    flag_eq := by
      rw [registers_stamped, if_pos rfl]
      split
      · exact .inr rfl
      · exact .inl rfl
    registers := fun r hr => (registers_stamped _ _ _ _ r).trans (if_neg (Ne.symm hr))
    index_eq := rfl
    memory_eq := rfl
    of_zero := fun hzero => by
      have hstamp := m.screen.stamp_of_height_eq_zero m.registers[x].toNat m.registers[y].toNat
        (hrows.trans hzero)
      rw [registers_stamped, hstamp]
      exact ⟨congrArg Prod.fst hstamp, rfl⟩ }

theorem effect_draw (h : m.WellFormed) {n : Fin 16} (hn : m.index + n.val ≤ 4096) :
    m.effect (.draw x y n) =
      .done (m.stamped m.registers[x] m.registers[y] (m.sprite n.val)) :=
  drawSprite_eq _ _ h.index_nonneg (by rwa [h.memory_size])

theorem index_add_le_of_success (h : m.WellFormed) {n : Fin 16}
    (hf : (m.effect (.draw x y n)).fault = none) : m.index + n.val ≤ 4096 := by
  by_contra hn
  rw [effect, drawSprite_of_lt _ _ (by rw [h.memory_size]; exact Int.not_le.mp hn)] at hf
  cases hf

theorem stamps_of_executes (h : m.WellFormed) {n : Fin 16} (hn : m.index + n.val ≤ 4096)
    {o : Outcome} (ho : m.Executes (.draw x y n) o) :
    o.fault = none ∧ m.Stamps x y n.val o.machine := by
  obtain ⟨pc, jumped, hmachine⟩ := ho.exists_machine_eq
  rw [effect_draw h hn] at hmachine
  refine ⟨by rw [ho.fault_eq, effect_draw h hn]; rfl, ?_⟩
  rw [hmachine]
  exact { stamps_stamped h n.isLt hn with }

/-- Executing an instruction that draws stamps a sprite onto the screen. -/
theorem stamps_of_run (stream : Nat → UInt8) (commands : List Command) (x y : Register)
    (n : Fin 16) :
    let m := (fresh stream).run commands
    m.index + n.val ≤ 4096 → ∀ o, m.Executes (.draw x y n) o →
      o.fault = none ∧ m.Stamps x y n.val o.machine :=
  fun hn _ ho => stamps_of_executes (.ofRun stream commands) hn ho

def cornering : List Int := [0x60, 62, 0xD0, 0x05, 0xD0, 0x05]

theorem run_cornering (stream : Nat → UInt8) :
    let m := (fresh stream).run [.load cornering 0x200, .cycle]
    (m.screen = .blank 64 32 ∧ m.index = 0 ∧ m.registers[(0 : Register)] = 62 ∧
      m.spriteBit 3 2 = true) ∧
    m.instruction? = some (.draw 0 0 5) ∧ m.cycle.machine.instruction? = some (.draw 0 0 5) := by
  intro m
  have h : (fresh stream).WellFormed := .fresh stream
  have hf : loadFault? cornering 0x200 = none := by decide
  have hi : ((fresh stream).load cornering 0x200).machine.instruction? = some (.setByte 0 62) :=
    instruction?_load h hf rfl
  obtain ⟨memory, hsize, hbyte, hm⟩ := exists_machine_load h cornering 0x200
  rw [if_pos hf] at hm
  have hrun : m = { (fresh stream).booted memory 0x202 with
      registers := RegisterFile.zero.put 0 62 } := by
    show (fresh stream).run [.load cornering 0x200, .cycle] = _
    rw [run_cons, run_cons, run_nil, perform, perform, cycle_of_success hi rfl, hm]
    rfl
  have hmemory : memory = ((fresh stream).load cornering 0x200).machine.memory := by
    rw [hm]
    rfl
  have hfirst : m.instruction? = some (.draw 0 0 5) := by
    rw [hrun]
    exact instruction?_of_loaded h hf rfl hmemory (k := 2) rfl rfl rfl rfl
  have hzero : m.index = 0 := by
    rw [hrun]
    rfl
  have heffect : m.effect (.draw 0 0 5) =
      .done (m.stamped m.registers[(0 : Register)] m.registers[(0 : Register)] (m.sprite 5)) :=
    effect_draw (.ofRun stream _) (n := 5) (by rw [hzero]; decide)
  have hcycle : m.cycle.machine =
      (m.stamped m.registers[(0 : Register)] m.registers[(0 : Register)] (m.sprite 5)).advance := by
    rw [cycle_of_success hfirst (by rw [heffect]; rfl), heffect]
    rfl
  refine ⟨?_, hfirst, ?_⟩
  · rw [hrun]
    refine ⟨rfl, rfl, rfl, ?_⟩
    show (memory.byteAt 2).toNat.testBit 4 = true
    rw [hbyte]
    decide
  · rw [hcycle, hrun]
    exact instruction?_of_loaded h hf rfl hmemory (k := 4) rfl rfl rfl rfl

theorem stamps_cornering :
    let m := (fresh fun _ => 0).run [.load cornering 0x200, .cycle]
    m.index + 5 ≤ 4096 ∧ m.Executes (.draw 0 0 5) m.cycle ∧ m.cycle.fault = none ∧
      m.Stamps 0 0 5 m.cycle.machine ∧ at? m.cycle.machine.screen.rows 1 0 = some .on := by
  obtain ⟨⟨hscreen, hindex, hregister, hbit⟩, hi, -⟩ := run_cornering fun _ => 0
  have hn : ((fresh fun _ => 0).run [.load cornering 0x200, .cycle]).index + 5 ≤ 4096 := by
    rw [hindex]
    decide
  obtain ⟨hf, hstamps⟩ :=
    stamps_of_run (fun _ => 0) [.load cornering 0x200, .cycle] 0 0 5 hn _ (.fetched hi)
  refine ⟨hn, .fetched hi, hf, hstamps, ?_⟩
  obtain ⟨p, hp, hat⟩ := hstamps.inside 3 (by decide) 2 (by decide) 1 0
    (by rw [hregister]; rfl) (by rw [hregister]; rfl)
  have hoff : p = .off := by
    rw [hscreen, Framebuffer.blank, Framebuffer.blankRows_eq] at hp
    exact at?_replicate hp
  rw [hat, hoff, hbit]
  rfl

theorem rows_stamped_twice (h : m.WellFormed) (X Y : UInt8) (sprite : Sprite) {after : Machine}
    (hscreen : after.screen = (m.stamped X Y sprite).screen) :
    (after.stamped X Y sprite).screen.rows = m.screen.rows := by
  have hw : 0 < m.screen.width := by rw [h.screen_width]; decide
  have hh : 0 < m.screen.height := by rw [h.screen_height]; decide
  rw [screen_stamped, hscreen, screen_stamped, ← Framebuffer.touchAll_append]
  exact Framebuffer.rows_touchAll_twice _ h.screen_sized hw hh (.refl _)

theorem rows_of_executes_twice (h : m.WellFormed) (hx : x ≠ Register.flag)
    (hy : y ≠ Register.flag) {n : Fin 16} {o o' : Outcome} (ho : m.Executes (.draw x y n) o)
    (hf : o.fault = none) (ho' : o.machine.Executes (.draw x y n) o') :
    o'.fault = none ∧ o'.machine.screen.rows = m.screen.rows := by
  have hn := index_add_le_of_success h (ho.fault_eq ▸ hf)
  -- the first time changes neither what the second draws nor where
  have hstamps := (stamps_of_executes h hn ho).2
  have heffect : o.machine.effect (.draw x y n) =
      .done (o.machine.stamped m.registers[x] m.registers[y] (m.sprite n.val)) := by
    rw [effect, hstamps.registers x hx, hstamps.registers y hy, drawSprite_eq, sprite, sprite,
      hstamps.index_eq, hstamps.memory_eq]
    · rw [hstamps.index_eq]
      exact h.index_nonneg
    · rwa [hstamps.index_eq, hstamps.memory_eq, h.memory_size]
  have hscreen : o.machine.screen =
      (m.stamped m.registers[x] m.registers[y] (m.sprite n.val)).screen := by
    rw [ho.screen_eq, effect_draw h hn]
    rfl
  refine ⟨by rw [ho'.fault_eq, heffect]; rfl, ?_⟩
  rw [ho'.screen_eq, heffect]
  exact rows_stamped_twice h m.registers[x] m.registers[y] (m.sprite n.val) hscreen

/-- Composing pixels obeys the parity law, on a screen of any size, and drawing the same sprite at
the same place again restores the screen. -/
theorem parity_law :
    (∀ s : Framebuffer, s.Sized → 1 ≤ s.width → 1 ≤ s.height → ∀ ts : List Touch, ∃ u told,
      s.compose ts = .ok (u, told) ∧ s.ObeysParity ts u told) ∧
    ∀ (stream : Nat → UInt8) (commands : List Command) (x y : Register) (n : Fin 16),
      x ≠ Register.flag → y ≠ Register.flag →
      let m := (fresh stream).run commands
      ∀ o o', m.Executes (.draw x y n) o → o.fault = none →
        o.machine.Executes (.draw x y n) o' →
        o'.fault = none ∧ o'.machine.screen.rows = m.screen.rows := by
  constructor
  · intro s hs hw hh ts
    have hw' : 0 < s.width := Int.lt_of_lt_of_le Int.zero_lt_one hw
    have hh' : 0 < s.height := Int.lt_of_lt_of_le Int.zero_lt_one hh
    exact ⟨_, _, Framebuffer.compose_eq ts hw' hh', Framebuffer.obeysParity ts hs hw' hh'⟩
  · intro stream commands x y n hx hy m o o' ho hf ho'
    exact rows_of_executes_twice (.ofRun stream commands) hx hy ho hf ho'

def meeting : List Touch := [⟨-1, 5, .on⟩, ⟨2, -1, .on⟩, ⟨0, 0, .off⟩, ⟨5, 1, .on⟩]

theorem parity_meeting :
    (∃ u, (Framebuffer.blank 3 2).compose meeting = .ok (u, [false, true, false, false]) ∧
      (Framebuffer.blank 3 2).ObeysParity meeting u [false, true, false, false] ∧
      at? u.rows 2 1 ≠ at? (Framebuffer.blank 3 2).rows 2 1) ∧
    let m := (fresh fun _ => 0).run [.load cornering 0x200, .cycle]
    m.Executes (.draw 0 0 5) m.cycle ∧ m.cycle.fault = none ∧
      m.cycle.machine.Executes (.draw 0 0 5) m.cycle.machine.cycle ∧
      m.cycle.machine.cycle.fault = none ∧
      m.cycle.machine.cycle.machine.screen.rows = m.screen.rows := by
  constructor
  · obtain ⟨u, told, hcompose, hobeys⟩ := parity_law.1 (.blank 3 2)
      (Framebuffer.sized_blank 3 2) (by decide) (by decide) meeting
    have hu := Framebuffer.compose_eq (s := .blank 3 2) meeting (by decide) (by decide)
    have htold : told = [false, true, false, false] := by
      rw [hcompose] at hu
      cases hu
      rfl
    subst htold
    exact ⟨u, hcompose, hobeys,
      (hobeys.differs_iff 2 (by decide) 1 (by decide)).mpr (by decide)⟩
  · obtain ⟨⟨-, hindex, -, -⟩, hi, hi'⟩ := run_cornering fun _ => 0
    have hn : ((fresh fun _ => 0).run [.load cornering 0x200, .cycle]).index + 5 ≤ 4096 := by
      rw [hindex]
      decide
    have hf := (stamps_of_executes (n := 5) (.ofRun _ _) hn (.fetched hi)).1
    obtain ⟨hf', hrows⟩ := parity_law.2 (fun _ => 0) [.load cornering 0x200, .cycle] 0 0 5
      (by decide) (by decide) _ _ (.fetched hi) hf (.fetched hi')
    exact ⟨.fetched hi, hf, .fetched hi', hf', hrows⟩

end Machine

end ChipEight
