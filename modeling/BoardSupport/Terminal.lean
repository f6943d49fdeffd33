import BoardSupport.Fault

/-! A text terminal of fixed size with circular scrolling. Scrolling moves the row that counts as
the top of the screen and blanks one row, instead of moving them all. -/
namespace BoardSupport

/-- A screen of `h` rows of `w` bytes. Screen row `r` is stored `r` places after `top`, around the
end of the store. The cursor is a column and a screen row. -/
structure Terminal (w h : Nat) where
  store : Vector (Vector UInt8 w) h
  x : Fin w
  y : Fin h
  top : Fin h

namespace Terminal

variable {w h : Nat}

def blankRow (w : Nat) : Vector UInt8 w := Vector.replicate w 0

/-- A blank screen with the cursor at its top left. -/
def empty (w h : Nat) (wide : 0 < w := by first | decide | exact Nat.pos_of_neZero w)
    (high : 0 < h := by first | decide | exact Nat.pos_of_neZero h) : Terminal w h where
  store := Vector.replicate h (blankRow w)
  x := ⟨0, wide⟩
  y := ⟨0, high⟩
  top := ⟨0, high⟩

def place (t : Terminal w h) (r : Fin h) : Fin h := t.top + r

def row (t : Terminal w h) (r : Fin h) : Vector UInt8 w := t.store[t.place r]

/-- What a screen row holds, if the screen has that many. -/
def checkedRow (t : Terminal w h) (r : Nat) : Except Fault (Vector UInt8 w) :=
  if inside : r < h then .ok (t.row ⟨r, inside⟩) else .error .rowOutOfRange

/-- The rows of the screen from top to bottom. -/
def rows (t : Terminal w h) : List (Vector UInt8 w) := (List.finRange h).map t.row

/-- Puts a row in the place of screen row `r`. -/
def setRow (t : Terminal w h) (r : Fin h) (v : Vector UInt8 w) : Terminal w h :=
  { t with store := t.store.set (t.place r) v }

def carriageReturn (t : Terminal w h) : Terminal w h :=
  { t with x := ⟨0, Nat.zero_lt_of_lt t.x.isLt⟩ }

/-- Moves to the start of the next row. On the last row the screen scrolls, and a blank row comes
in at the bottom. -/
def newline (t : Terminal w h) : Terminal w h :=
  if below : t.y.val + 1 < h then
    { t.carriageReturn with y := ⟨t.y.val + 1, below⟩ }
  else
    have : 0 < h := Nat.zero_lt_of_lt t.y.isLt
    let scrolled := { t.carriageReturn with top := ⟨(t.top.val + 1) % h, Nat.mod_lt _ this⟩ }
    scrolled.setRow ⟨h - 1, Nat.sub_one_lt_of_lt this⟩ (blankRow w)

/-- Puts a byte at the cursor and moves on, to the next row after the last column. -/
def put (t : Terminal w h) (b : UInt8) : Terminal w h :=
  let t := t.setRow t.y ((t.row t.y).set t.x b)
  if right : t.x.val + 1 < w then { t with x := ⟨t.x.val + 1, right⟩ } else t.newline

def tabStop : Nat := 8

/-- Moves to the next tab stop, or to the next row if this one has none left. -/
def tab (t : Terminal w h) : Terminal w h :=
  if right : (t.x.val / tabStop + 1) * tabStop < w then
    { t with x := ⟨(t.x.val / tabStop + 1) * tabStop, right⟩ }
  else t.newline

/-- Moves one column left, if there is one. -/
def backspace (t : Terminal w h) : Terminal w h :=
  { t with x := ⟨t.x.val - 1, Nat.lt_of_le_of_lt (Nat.sub_le _ _) t.x.isLt⟩ }

/-- Acts on a control byte and shows any other. -/
def writeByte (t : Terminal w h) (b : UInt8) : Terminal w h :=
  if b = 10 then t.newline
  else if b = 13 then t.carriageReturn
  else if b = 8 then t.backspace
  else if b = 9 then t.tab
  else t.put b

def writeBytes (t : Terminal w h) (bytes : List UInt8) : Terminal w h := bytes.foldl writeByte t

/-- The byte shown for a character: its own if it is ASCII, a question mark otherwise. -/
def byteOf (c : Char) : UInt8 := if c.val < 128 then c.val.toUInt8 else 63

def write (t : Terminal w h) (s : String) : Terminal w h := t.writeBytes (s.toList.map byteOf)

/-- Moves the cursor, to the nearest cell if there is none at the place asked for. -/
def setCursor (t : Terminal w h) (x y : Nat) : Terminal w h :=
  { t with
    x := ⟨min x (w - 1), Nat.lt_of_le_of_lt (Nat.min_le_right _ _) (Nat.sub_one_lt_of_lt t.x.isLt)⟩
    y := ⟨min y (h - 1), Nat.lt_of_le_of_lt (Nat.min_le_right _ _) (Nat.sub_one_lt_of_lt t.y.isLt)⟩ }

/-- Blanks the cursor's row and returns to its start. -/
def clearLine (t : Terminal w h) : Terminal w h := (t.setRow t.y (blankRow w)).carriageReturn

/-- Blanks the screen and moves the cursor to its top left. -/
def clear (t : Terminal w h) : Terminal w h :=
  empty w h (Nat.zero_lt_of_lt t.x.isLt) (Nat.zero_lt_of_lt t.y.isLt)

end Terminal

end BoardSupport
