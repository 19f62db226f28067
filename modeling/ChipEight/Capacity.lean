import ChipEight.Fault

namespace ChipEight.Capacity

def fits64 (n : Int) : Bool := -0x8000000000000000 ≤ n && n < 0x8000000000000000

def limit : Int := 0x40000000

/-- Why a sequence cannot be given `n` places: `n` is no number of 64 bits, or there is no room for
so many. A negative number asks for no room. -/
def fault? (n : Int) : Option Fault :=
  if !fits64 n then some .placeCount
  else if limit ≤ n then some .noRoom
  else none

end ChipEight.Capacity
