import ChipEight.Proofs.Waiting
import Mathlib.Data.List.Induction

namespace ChipEight

def Key.mark (k : Key) : Char := (Nat.digitChar k.val).toUpper

namespace Key

end Key

namespace Keypad

end Keypad

namespace Machine

variable {m : Machine} {c : Command} {commands : List Command}

end Machine

end ChipEight
