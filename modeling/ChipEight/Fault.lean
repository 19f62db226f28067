import ChipEight.Register
import ChipEight.Text.Quoted

namespace ChipEight

inductive Fault where
  | invalidInstruction (word : UInt16)
  | invalidRegister (value : Int)
  | protectedFetch (address : Int)
  | fetchOutside (address : Int)
  | emptyStack
  | fullStack (address : Int)
  /-- An instruction reached beyond the memory. -/
  | accessOutside (address : Int)
  | invalidKey (value : Int)
  | protectedWrite (start stop : Int)
  | writeOutside (start stop : Int)
  | wideWord (word : Int)
  | wordLength (length : Nat)
  | unknownRegister (value : Int)
  | unknownKey (value : Int)
  | registerRange (register : Register) (value : Int)
  | byteRange
  /-- The number of places asked for is no number of 64 bits. -/
  | placeCount
  | noRoom
  | negativeSize
  /-- A column to the right of a sprite. -/
  | negativeShift
  | notKeyFace (text : String)
  | indexOutside
  /-- A coordinate was to be wrapped around a screen without rows or without columns. -/
  | emptyScreen
  | longNumeral (limit : Nat)
  deriving DecidableEq

namespace Fault

/-- The activity during which a fault arises. Faults of the last family are those of a caller, and
no program can cause them. -/
inductive Family where
  | decoding | fetching | execution | loading | misuse
  deriving DecidableEq

def family : Fault → Family
  | invalidInstruction _ | invalidRegister _ => .decoding
  | protectedFetch _ | fetchOutside _ => .fetching
  | emptyStack | fullStack _ | accessOutside _ | invalidKey _ => .execution
  | protectedWrite _ _ | writeOutside _ _ => .loading
  | wideWord _ | wordLength _ | unknownRegister _ | unknownKey _ | registerRange _ _ | byteRange
  | placeCount | noRoom | negativeSize | negativeShift | notKeyFace _ | indexOutside
  | emptyScreen | longNumeral _ => .misuse

/-- The fault that arises where `f` is about to be reported and its message quotes `value`. -/
def quoting (f : Fault) (l : Text.DigitLimit) (value : Int) : Fault :=
  match l.exceeded? value with
  | some limit => longNumeral limit
  | none => f

private def span (start stop : Int) : String := Text.address start ++ ".." ++ Text.address stop

def message : Fault → String
  | invalidInstruction word => "invalid instruction '" ++ Text.address word.toNat ++ "'"
  | invalidRegister value => "invalid data register '" ++ Text.decimal value ++ "'"
  | protectedFetch address =>
    "instruction address in protected memory area: " ++ Text.address address
  | fetchOutside address => "instruction address outside of the memory: " ++ Text.address address
  | emptyStack => "invalid return, no address on stack to jump back to"
  | fullStack address => "the CHIP-8 stack is full, cannot push " ++ Text.address address
  | accessOutside address =>
    "invalid memory access, attempted to access " ++ Text.address address
  | invalidKey value => "invalid key " ++ Text.decimal value ++ " specified"
  | protectedWrite start stop =>
    "address range is inside of protected memory area: " ++ span start stop
  | writeOutside start stop => "address range is outside of the memory: " ++ span start stop
  | wideWord word => "0x" ++ Text.hex 0 word ++ " is not a 16 bit instruction word"
  | wordLength length => "an instruction word is 2 bytes long, got " ++ Text.decimal length
  | unknownRegister value => Text.decimal value ++ " is not a valid DataRegister"
  | unknownKey value => Text.decimal value ++ " is not a valid Key"
  | registerRange register value =>
    Text.decimal value ++ " does not fit into the 8 bit register " ++ register.name
  | byteRange => "bytes must be in range(0, 256)"
  | placeCount => "the number of places is no number of 64 bits"
  | noRoom => "there is no room for so many places"
  | negativeSize => "negative count"
  | negativeShift => "negative shift count"
  | notKeyFace text => Text.quoted text ++ " is not a CHIP-8 key"
  | indexOutside => "position outside of the sequence"
  | emptyScreen => "the screen has no rows or no columns"
  | longNumeral limit =>
    "Exceeds the limit (" ++ Text.decimal limit ++ " digits) for integer string conversion; " ++
      "use sys.set_int_max_str_digits() to increase the limit"

theorem quoting_of_admits {l : Text.DigitLimit} {value : Int} (h : l.Admits value) (f : Fault) :
    f.quoting l value = f := by
  rw [quoting, Text.DigitLimit.exceeded?_eq_none_iff.mpr h]

end Fault

end ChipEight
