import ChipEight.Fault
import ChipEight.Key

namespace ChipEight

namespace Key

/-- The key that a program or an operator names by number. -/
def ofValue (l : Text.DigitLimit) (value : Int) : Except Fault Key :=
  match ofInt? value with
  | some k => .ok k
  | none => .error (Fault.quoting (.invalidKey value) l value)

/-- The key that a caller names by number. -/
def ofNumber (l : Text.DigitLimit) (value : Int) : Except Fault Key :=
  match ofInt? value with
  | some k => .ok k
  | none => .error (Fault.quoting (.unknownKey value) l value)

def ofText (s : String) : Except Fault Key :=
  match ofText? s with
  | some k => .ok k
  | none => .error (.notKeyFace s)

theorem ofValue_of_lt (l : Text.DigitLimit) {n : Nat} (h : n < 16) :
    ofValue l n = .ok ⟨n, h⟩ := by
  have hk : ofInt? n = some ⟨n, h⟩ := ofInt?_val ⟨n, h⟩
  rw [ofValue, hk]

theorem ofValue_of_not (l : Text.DigitLimit) {i : Int} (h : i < 0 ∨ 16 ≤ i) :
    ofValue l i = .error (Fault.quoting (.invalidKey i) l i) := by
  rw [ofValue, (ofInt?_eq_none_iff i).mpr h]

end Key

abbrev Keypad := Vector Bool 16

namespace Keypad

def released : Keypad := Vector.replicate 16 false

def press (p : Keypad) (k : Key) : Keypad := p.set k true

def release (p : Keypad) (k : Key) : Keypad := p.set k false

def isDown (p : Keypad) (k : Key) : Bool := p[k]

def pressed (p : Keypad) : List Key := Key.all.filter p.isDown

def text (p : Keypad) : String :=
  "Keyboard(pressed=[" ++ ", ".intercalate (p.pressed.map Key.face) ++ "])"

@[simp] theorem isDown_released (k : Key) : released.isDown k = false := by
  simp [isDown, released]

theorem mem_pressed (p : Keypad) (k : Key) : k ∈ p.pressed ↔ p.isDown k = true := by
  simp [pressed, Key.all]

end Keypad

end ChipEight
