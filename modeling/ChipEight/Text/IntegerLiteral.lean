import ChipEight.Text.Blank
import ChipEight.Text.DecimalDigit
import ChipEight.Text.Quoted

namespace ChipEight.Text

inductive NotInteger where
  | malformed (text : String)
  | tooLong (count : Nat)
  deriving DecidableEq

/-- The digits at the front of a text, up to the first character that is neither a digit nor an
underscore, and what follows them. Refused where an underscore does not stand between two digits. -/
def leadingDigits : List Char → Option (List Nat × List Char)
  | [] => some ([], [])
  | c :: rest =>
    match digitValue? c with
    | some d => (underscored rest).map fun (ds, tail) => (d :: ds, tail)
    | none => some ([], c :: rest)
where
  underscored : List Char → Option (List Nat × List Char)
    | [] => some ([], [])
    | '_' :: [] => none
    | '_' :: c :: rest =>
      match digitValue? c with
      | some d => (underscored rest).map fun (ds, tail) => (d :: ds, tail)
      | none => none
    | c :: rest =>
      match digitValue? c with
      | some d => (underscored rest).map fun (ds, tail) => (d :: ds, tail)
      | none => some ([], c :: rest)

def numberOf (ds : List Nat) : Nat := ds.foldl (fun n d => 10 * n + d) 0

def splitSign : List Char → Int × List Char
  | '-' :: rest => (-1, rest)
  | '+' :: rest => (1, rest)
  | rest => (1, rest)

def readInteger (s : String) : Except NotInteger Int :=
  let (factor, body) := splitSign (strip s.toList)
  match leadingDigits body with
  | some (d :: ds, tail) =>
    if usualDigits < (d :: ds).length then .error (.tooLong (d :: ds).length)
    else if tail.isEmpty then .ok (factor * numberOf (d :: ds))
    else .error (.malformed s)
  | _ => .error (.malformed s)

/-- The text of a refusal. A long text is quoted up to its two hundredth character. -/
def NotInteger.message : NotInteger → String
  | .malformed text =>
    "invalid literal for int() with base 10: " ++
      String.ofList ((quotedChars text.toList).take 200)
  | .tooLong count =>
    "Exceeds the limit (" ++ decimal usualDigits ++
      " digits) for integer string conversion: value has " ++ decimal count ++
      " digits; use sys.set_int_max_str_digits() to increase the limit"

end ChipEight.Text
