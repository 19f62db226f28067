namespace ChipEight

/-- The byte at position `n` of the sequence of a seed: a counter in steps of an odd constant, mixed
by shifts and multiplications. -/
def noise (seed : UInt64) (n : Nat) : UInt8 :=
  let counter := seed + UInt64.ofNat (n + 1) * 0x9E3779B97F4A7C15
  let once := (counter ^^^ (counter >>> 30)) * 0xBF58476D1CE4E5B9
  let twice := (once ^^^ (once >>> 27)) * 0x94D049BB133111EB
  ((twice ^^^ (twice >>> 31)) >>> 56).toUInt8

end ChipEight
