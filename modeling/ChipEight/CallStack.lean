import ChipEight.Fault

namespace ChipEight

structure CallStack where
  capacity : Int
  /-- The addresses, the last pushed first. -/
  frames : List Int
  deriving DecidableEq

namespace CallStack

def empty (capacity : Int) : CallStack := ⟨capacity, []⟩

def clear (s : CallStack) : CallStack := { s with frames := [] }

def size (s : CallStack) : Nat := s.frames.length

def push (s : CallStack) (address : Int) : Except Fault CallStack :=
  if s.capacity ≤ s.size then .error (.fullStack address)
  else .ok { s with frames := address :: s.frames }

def pop (s : CallStack) : Except Fault (Int × CallStack) :=
  match s.frames with
  | [] => .error .emptyStack
  | address :: rest => .ok (address, { s with frames := rest })

def addresses (s : CallStack) : List Int := s.frames.reverse

def text (s : CallStack) : String :=
  "[" ++ ", ".intercalate (s.addresses.map Text.address) ++ "]"

end CallStack

end ChipEight
