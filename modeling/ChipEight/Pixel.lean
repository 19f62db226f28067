namespace ChipEight

inductive Pixel where
  | off | on
  deriving DecidableEq

namespace Pixel

/-- Any number but zero lights a pixel. -/
def ofBit (bit : Int) : Pixel := if bit = 0 then off else on

def ofBool : Bool → Pixel
  | true => on
  | false => off

def isOn : Pixel → Bool
  | on => true
  | off => false

protected def xor : Pixel → Pixel → Pixel
  | off, p => p
  | on, off => on
  | on, on => off

def bit : Pixel → Nat
  | off => 0
  | on => 1

def mark : Pixel → Char
  | off => '.'
  | on => '#'

@[simp] theorem isOn_xor (p q : Pixel) : (p.xor q).isOn = (p.isOn ^^ q.isOn) := by
  cases p <;> cases q <;> rfl

theorem isOn_eq_true_iff {p : Pixel} : p.isOn = true ↔ p = on := by
  cases p <;> decide

theorem isOn_inj {p q : Pixel} : p.isOn = q.isOn ↔ p = q := by
  cases p <;> cases q <;> decide

end Pixel

end ChipEight
