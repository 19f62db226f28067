import ChipEight.Fault

namespace ChipEight

namespace Register

/-- The register that an operand field names. -/
def ofField (l : Text.DigitLimit) (value : Int) : Except Fault Register :=
  match ofInt? value with
  | some r => .ok r
  | none => .error (Fault.quoting (.invalidRegister value) l value)

def ofNumber (l : Text.DigitLimit) (value : Int) : Except Fault Register :=
  match ofInt? value with
  | some r => .ok r
  | none => .error (Fault.quoting (.unknownRegister value) l value)

end Register

abbrev RegisterFile := Vector UInt8 16

namespace RegisterFile

instance : GetElem RegisterFile Register UInt8 fun _ _ => True where
  getElem v r _ := v[r.val]

def zero : RegisterFile := Vector.replicate 16 0

def put (v : RegisterFile) (r : Register) (b : UInt8) : RegisterFile := v.set r b

def store (v : RegisterFile) (l : Text.DigitLimit) (r : Register) (value : Int) :
    Except Fault RegisterFile :=
  if 0 ≤ value ∧ value < 256 then .ok (v.put r (UInt8.ofNat value.toNat))
  else .error (Fault.quoting (.registerRange r value) l value)

def readNumber (v : RegisterFile) (l : Text.DigitLimit) (number : Int) : Except Fault UInt8 :=
  (Register.ofNumber l number).map fun r => v[r]

/-- Stores at a register named by number. A value that cannot be quoted is reported before a wrong
name, and a wrong name before any other wrong value. -/
def storeNumber (v : RegisterFile) (l : Text.DigitLimit) (number value : Int) :
    Except Fault RegisterFile :=
  match l.exceeded? value with
  | some limit => .error (.longNumeral limit)
  | none => (Register.ofNumber l number).bind fun r => v.store l r value

def text (v : RegisterFile) : String :=
  " ".intercalate (Register.all.map fun r => r.name ++ ":" ++ Text.hex 2 v[r].toNat)

theorem getElem_eq (v : RegisterFile) (r : Register) : v[r] = v[r.val] := rfl

@[simp] theorem getElem_zero (r : Register) : zero[r] = 0 := by
  simp [zero, getElem_eq]

theorem getElem_put (v : RegisterFile) (r q : Register) (b : UInt8) :
    (v.put r b)[q] = if r = q then b else v[q] := by
  simp only [getElem_eq, put, Vector.getElem_set, Fin.ext_iff]

end RegisterFile

end ChipEight
