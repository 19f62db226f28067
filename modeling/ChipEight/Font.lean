namespace ChipEight.Font

def glyphSize : Nat := 5

def glyphs : List (List UInt8) := [
  [0xF0, 0x90, 0x90, 0x90, 0xF0],
  [0x20, 0x60, 0x20, 0x20, 0x70],
  [0xF0, 0x10, 0xF0, 0x80, 0xF0],
  [0xF0, 0x10, 0xF0, 0x10, 0xF0],
  [0x90, 0x90, 0xF0, 0x10, 0x10],
  [0xF0, 0x80, 0xF0, 0x10, 0xF0],
  [0xF0, 0x80, 0xF0, 0x90, 0xF0],
  [0xF0, 0x10, 0x20, 0x40, 0x40],
  [0xF0, 0x90, 0xF0, 0x90, 0xF0],
  [0xF0, 0x90, 0xF0, 0x10, 0xF0],
  [0xF0, 0x90, 0xF0, 0x90, 0x90],
  [0xE0, 0x90, 0xE0, 0x90, 0xE0],
  [0xF0, 0x80, 0x80, 0x80, 0xF0],
  [0xE0, 0x90, 0x90, 0x90, 0xE0],
  [0xF0, 0x80, 0xF0, 0x80, 0xF0],
  [0xF0, 0x80, 0xF0, 0x80, 0x80]]

def image : List UInt8 := glyphs.flatten

/-- The address of the glyph of a digit; other numbers continue the progression. -/
def glyphAddress (digit : Nat) : Nat := glyphSize * digit

theorem length_image : image.length = 80 := by decide

theorem map_range_image (d : Fin 16) :
    (List.range glyphSize).map (fun k => image.getD (glyphAddress d + k) 0) = glyphs[d] := by
  decide +revert

end ChipEight.Font
