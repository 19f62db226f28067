namespace ChipEight.Text

/-- Whether one of the closed intervals of a table holds the code point `n`. -/
def inRanges (table : List (Nat × Nat)) (n : Nat) : Bool :=
  table.any fun range => range.1 ≤ n && n ≤ range.2

end ChipEight.Text
