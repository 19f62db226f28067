namespace ChipEight.Text

/-- What `Fin 16` needs for its literals. Its `Zero` is spelled out so that the literals are the same
terms in every module, whatever instances of `Zero` the module has imported. -/
instance neZero_sixteen : @NeZero Nat Zero.ofOfNat0 16 := ⟨Nat.succ_ne_zero 15⟩

def sign (i : Int) : List Char := if i < 0 then ['-'] else []

def decimalDigits (i : Int) : List Char := sign i ++ Nat.toDigits 10 i.natAbs

/-- Hexadecimal digits, with zeros between sign and digits so that all of it is at least `width`
characters long; a longer numeral stays as it is. -/
def hexDigits (width : Nat) (i : Int) : List Char :=
  let digits := Nat.toDigits 16 i.natAbs
  sign i ++ List.replicate (width - (sign i).length - digits.length) '0' ++ digits

/-- The decimal numeral of a number, however long it is. Messages quote a number by it only after a
`DigitLimit` has been asked. -/
def decimal (i : Int) : String := String.ofList (decimalDigits i)

def hex (width : Nat) (i : Int) : String := String.ofList (hexDigits width i)

def hexCapital (i : Int) : String := String.ofList ((hexDigits 0 i).map Char.toUpper)

def address (i : Int) : String := "0x" ++ hex 4 i

/-- The number of decimal digits. A sign is not counted. -/
def digitCount (i : Int) : Nat := (Nat.toDigits 10 i.natAbs).length

def usualDigits : Nat := 4300

/-- How many digits a number may have to be written in decimal, a setting of the host. There need not
be a limit, but one that is set leaves room for 640 digits. -/
structure DigitLimit where
  digits? : Option Nat
  least : ∀ n ∈ digits?, 640 ≤ n
  deriving DecidableEq

namespace DigitLimit

def usual : DigitLimit := ⟨some usualDigits, by simp [usualDigits]⟩

/-- The limit, if a number has more digits. -/
def exceeded? (l : DigitLimit) (i : Int) : Option Nat :=
  l.digits?.filter fun n => n < digitCount i

def Admits (l : DigitLimit) (i : Int) : Prop := ∀ n ∈ l.digits?, digitCount i ≤ n

theorem exceeded?_eq_some_iff {l : DigitLimit} {i : Int} {n : Nat} :
    l.exceeded? i = some n ↔ l.digits? = some n ∧ n < digitCount i := by
  rw [exceeded?, Option.filter_eq_some_iff, decide_eq_true_iff]

theorem exceeded?_eq_none_iff {l : DigitLimit} {i : Int} :
    l.exceeded? i = none ↔ l.Admits i := by
  rw [Option.eq_none_iff_forall_ne_some]
  refine forall_congr' fun n => ?_
  rw [ne_eq, exceeded?_eq_some_iff, not_and, Nat.not_lt]
  rfl

theorem admits_of_lt (l : DigitLimit) {i : Int} (h : i.natAbs < 256) : l.Admits i := by
  intro n hn
  calc digitCount i
    _ ≤ 3 := (Nat.length_toDigits_le_iff (by decide) (by decide)).mpr (by omega)
    _ ≤ n := Nat.le_trans (by decide) (l.least n hn)

end DigitLimit

@[simp] theorem sign_of_nonneg {i : Int} (h : 0 ≤ i) : sign i = [] := by
  simp only [sign, if_neg (Int.not_lt.mpr h)]

@[simp] theorem sign_of_neg {i : Int} (h : i < 0) : sign i = ['-'] := by
  simp only [sign, if_pos h]

end ChipEight.Text
