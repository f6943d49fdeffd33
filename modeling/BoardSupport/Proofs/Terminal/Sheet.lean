import BoardSupport.Terminal

/-! A plain scrolling screen, which keeps its rows from top to bottom and moves them all to scroll. -/
namespace BoardSupport.Terminal

/-- What can be done to a screen. -/
inductive Action
  | writeByte (b : UInt8)
  | write (s : String)
  | newline
  | carriageReturn
  | clearLine
  | clear
  | setCursor (x y : Nat)

def perform {w h : Nat} (t : Terminal w h) : Action → Terminal w h
  | .writeByte b => t.writeByte b
  | .write s => t.write s
  | .newline => t.newline
  | .carriageReturn => t.carriageReturn
  | .clearLine => t.clearLine
  | .clear => t.clear
  | .setCursor x y => t.setCursor x y

structure Sheet where
  rows : List (List UInt8)
  x : Nat
  y : Nat
  /-- How often the screen has scrolled since it was last clear. -/
  scrolls : Nat
  deriving DecidableEq

namespace Sheet

variable (w h : Nat)

def zeros : List UInt8 := List.replicate w 0

def clear : Sheet := ⟨List.replicate h (zeros w), 0, 0, 0⟩

def newline (s : Sheet) : Sheet :=
  if s.y + 1 < h then { s with x := 0, y := s.y + 1 }
  else { s with rows := s.rows.tail ++ [zeros w], x := 0, scrolls := s.scrolls + 1 }

def put (s : Sheet) (b : UInt8) : Sheet :=
  let written := { s with rows := s.rows.modify s.y fun row => row.set s.x b }
  if s.x + 1 = w then written.newline w h else { written with x := s.x + 1 }

/-- The next column that is a multiple of eight, or the next row. -/
def tab (s : Sheet) : Sheet :=
  let next := s.x + (8 - s.x % 8)
  if next < w then { s with x := next } else s.newline w h

def writeByte (s : Sheet) (b : UInt8) : Sheet :=
  if b = '\n'.toUInt8 then s.newline w h
  else if b = '\r'.toUInt8 then { s with x := 0 }
  else if b = '\x08'.toUInt8 then { s with x := s.x - 1 }
  else if b = '\t'.toUInt8 then s.tab w h
  else s.put w h b

/-- A character counts as its byte if it is ASCII, and as one question mark if not. -/
def write (s : Sheet) (text : String) : Sheet :=
  text.toList.foldl (fun s c => s.writeByte w h (if c.toNat < 128 then c.toUInt8 else '?'.toUInt8)) s

def perform (s : Sheet) : Action → Sheet
  | .writeByte b => s.writeByte w h b
  | .write text => s.write w h text
  | .newline => s.newline w h
  | .carriageReturn => { s with x := 0 }
  | .clearLine => { s with rows := s.rows.set s.y (zeros w), x := 0 }
  | .clear => clear w h
  | .setCursor x y => { s with x := min x (w - 1), y := min y (h - 1) }

end Sheet

end BoardSupport.Terminal
