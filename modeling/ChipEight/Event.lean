import ChipEight.Instruction.Disassembly
import ChipEight.Memory

namespace ChipEight

inductive Level where
  | debug | info | warning | error
  deriving DecidableEq

namespace Level

def rank : Level → Nat
  | debug => 0
  | info => 1
  | warning => 2
  | error => 3

def name : Level → String
  | debug => "DEBUG"
  | info => "INFO"
  | warning => "WARNING"
  | error => "ERROR"

end Level

inductive Event where
  /-- An instruction is about to be executed; `pc` is the program counter at that moment. -/
  | executed (pc : Int) (instruction : Instruction)
  | loaded (count : Nat) (address : Int)
  | keyStored (key : Int) (register : Register)
  | spriteOutside (address count : Int)
  | stopped (fault : Fault)
  deriving DecidableEq

namespace Event

def level : Event → Level
  | executed _ _ | keyStored _ _ | spriteOutside _ _ => .debug
  | loaded _ _ => .info
  | stopped _ => .error

def text : Event → String
  | executed pc instruction =>
    "mem_addr: " ++ Text.address pc ++ "    instruction: " ++ instruction.text
  | loaded count address =>
    "program of " ++ Text.decimal count ++ " bytes loaded at " ++ Text.address address
  | keyStored key register =>
    "key " ++ Text.hexCapital key ++ " released, stored in " ++ register.name
  | spriteOutside address count =>
    "sprite at " ++ Text.address address ++ " (" ++ Text.decimal count ++
      " bytes) is outside of the memory"
  | stopped fault => fault.message

def line (e : Event) : String := e.level.name ++ " " ++ e.text

def reaches (threshold : Level) (e : Event) : Bool := threshold.rank ≤ e.level.rank

def log (threshold : Level) (events : List Event) : List String :=
  (events.filter (reaches threshold)).map line

end Event

/-- The sprite at an address, or a note that it lies outside of the memory. The note is written even
where no log holds it. -/
def Memory.readSprite (m : Memory) (l : Text.DigitLimit) (address count : Int) :
    Except Fault (Option Sprite × List Event) :=
  match m.sprite? address count with
  | some sprite => .ok (some sprite, [])
  | none =>
    match l.exceeded? count with
    | some limit => .error (.longNumeral limit)
    | none => .ok (none, [.spriteOutside address count])

end ChipEight
