import ChipEight.Framebuffer

namespace ChipEight

inductive Ink where
  | background | foreground
  deriving DecidableEq

/-- A display of the host. It may refuse a title or a size. Painting never fails, and what a window
looks like is known by what can be seen at its places. -/
structure Display (Surface Refusal : Type) where
  titleRefusal? : List Char → Option Refusal
  opened : Int → Int → Except Refusal Surface
  filled : Surface → Ink → Surface
  /-- A window with a rectangle painted, of which the upper left corner, the width and the height are
  given. -/
  painted : Surface → Ink → Int → Int → Int → Int → Surface
  /-- What can be seen in a column of a row, if the window has such a place. -/
  inkAt? : Surface → Int → Int → Option Ink
  explain : Refusal → String

namespace Display

variable {Surface Refusal : Type} (d : Display Surface Refusal)

/-- The window for a picture each of whose pixels is a square of `scale` places a side. -/
def create (s : Framebuffer) (scale : Int) : Except Refusal Surface :=
  (d.opened (s.width * scale) (s.height * scale)).map fun w => d.filled w .background

def paintPixel (scale : Int) (w : Surface) (x y : Nat) : Surface :=
  d.painted w .foreground (x * scale) (y * scale) scale scale

def render (scale : Int) (w : Surface) (s : Framebuffer) : Surface :=
  s.litCells.foldl (fun v (x, y) => d.paintPixel scale v x y) (d.filled w .background)

end Display

end ChipEight
