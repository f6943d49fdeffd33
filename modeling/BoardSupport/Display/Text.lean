import BoardSupport.Bus
import BoardSupport.Terminal

/-! The display of 80 by 30 character cells. Each cell is one word: the code, and the two colours of
a palette. -/
namespace BoardSupport

inductive Colour
  | black
  | red
  | green
  | blue
  | yellow
  | magenta
  | cyan
  | white
  | grey
  deriving DecidableEq, Repr

def Colour.index : Colour → UInt32
  | black => 0
  | red => 1
  | green => 2
  | blue => 3
  | yellow => 4
  | magenta => 5
  | cyan => 6
  | white => 7
  | grey => 8

/-- A character-cell display with its cells at `base`, row by row. -/
structure TextDisplay where
  base : Address

namespace TextDisplay

def columns : Nat := 80

def lines : Nat := 30

def cell (code : UInt8) (ink paper : Colour) : UInt32 :=
  ink.index <<< 12 ||| paper.index <<< 8 ||| code.toUInt32

/-- The address of the cell in column `x` of line `y`. -/
def address (d : TextDisplay) (x y : Nat) : Address := Bus.word d.base (y * columns + x)

/-- Sets one cell. A place off the screen is ignored. -/
def set (d : TextDisplay) (x y : Nat) (code : UInt8) (ink paper : Colour) : Program Bus Unit :=
  if x < columns ∧ y < lines then Bus.store (d.address x y) (cell code ink paper) else return ()

/-- Writes codes from (`x`, `y`) to the right, clipped at the edge. Columns are 64-bit numbers, and
the program gives up at the first one past the last of those. -/
def string (d : TextDisplay) (x y : Nat) (codes : List UInt8) (ink paper : Colour) :
    Program Bus Unit :=
  codes.zipIdx.forM fun (code, i) =>
    if x + i < UInt64.size then d.set (x + i) y code ink paper else .fault .addOverflow

/-- The numbers from `first` to `last` inclusive. -/
def span (first last : Nat) : List Nat := List.range' first (last + 1 - first)

/-- Blanks the rectangle from (`x1`, `y1`) to (`x2`, `y2`) inclusive to a background. -/
def fill (d : TextDisplay) (x1 y1 x2 y2 : Nat) (paper : Colour) : Program Bus Unit :=
  (span y1 y2).forM fun y => (span x1 x2).forM fun x => d.set x y 0 .black paper

def clear (d : TextDisplay) : Program Bus Unit := d.fill 0 0 (columns - 1) (lines - 1) .black

/-- Copies a terminal to the screen, white on black, as far as it fits. -/
def refresh {w h : Nat} (d : TextDisplay) (t : Terminal w h) : Program Bus Unit :=
  t.rows.zipIdx.forM fun (row, y) =>
    row.toList.zipIdx.forM fun (code, x) => d.set x y code .white .black

end TextDisplay

end BoardSupport
