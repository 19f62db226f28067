import ChipEight.Display

namespace ChipEight

structure Window where
  width : Nat
  height : Nat
  rows : Vector (Vector Ink width) height

namespace Window

inductive Refusal where
  | nullCharacter
  | unrepresentable
  | outOfRange
  deriving DecidableEq

def Refusal.text : Refusal → String
  | nullCharacter => "the name of the file cannot be a title"
  | unrepresentable => "the size of the window is no number of 64 bits"
  | outOfRange => "a window cannot have this size"

def maxSide : Int := 16384

def plain (width height : Nat) (ink : Ink) : Window :=
  ⟨width, height, Vector.replicate height (Vector.replicate width ink)⟩

/-- The window where no size is asked for. -/
def standard : Window := plain 1024 768 .background

/-- The number that the lower 32 bits of a number stand for. -/
def lower32 (n : Int) : Int := n.bmod 0x100000000

def ofSize (width height : Int) : Except Refusal Window :=
  if !(Capacity.fits64 width && Capacity.fits64 height) then .error .unrepresentable
  else if lower32 width = 0 ∧ lower32 height = 0 then .ok standard
  else if lower32 width < 0 ∨ maxSide < lower32 width ∨ lower32 height < 0
      ∨ maxSide < lower32 height then .error .outOfRange
  else .ok (plain (lower32 width).toNat (lower32 height).toNat .background)

def modifyFrom {α : Type} {n : Nat} (f : α → α) (start : Nat) : Nat → Vector α n → Vector α n
  | 0, xs => xs
  | count + 1, xs =>
    modifyFrom f (start + 1) count ⟨xs.toArray.modify start f, by simp⟩

def modifyBetween {α : Type} {n : Nat} (f : α → α) (start stop : Int) (xs : Vector α n) :
    Vector α n :=
  modifyFrom f start.toNat (min stop.toNat n - start.toNat) xs

def paint (w : Window) (ink : Ink) (x y width height : Int) : Window :=
  ⟨w.width, w.height,
    modifyBetween (modifyBetween (fun _ => ink) x (x + width)) y (y + height) w.rows⟩

def inkAt? (w : Window) (x y : Int) : Option Ink :=
  if 0 ≤ x ∧ 0 ≤ y then (w.rows[y.toNat]?).bind fun row => row[x.toNat]? else none

/-- The window as text when it is divided into a grid of `columns` and `lines`: a mark for every
field whose upper left corner has the foreground colour. -/
def gridText (w : Window) (columns lines : Nat) : List String :=
  (List.range lines).map fun y => String.ofList ((List.range columns).map fun x =>
    if w.inkAt? (x * (w.width / columns) : Nat) (y * (w.height / lines) : Nat) = some .foreground
    then '#' else '.')

/-- A display without a screen, whose windows are rasters in memory. Of every side and coordinate it
takes the lower 32 bits. -/
def screenless : Display Window Refusal where
  titleRefusal? title := if title.contains '\x00' then some .nullCharacter else none
  opened := ofSize
  filled w ink := plain w.width w.height ink
  painted w ink x y width height :=
    w.paint ink (lower32 x) (lower32 y) (lower32 width) (lower32 height)
  inkAt? := inkAt?
  explain := Refusal.text

end Window

end ChipEight
