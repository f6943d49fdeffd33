import BoardSupport.Oled.Panel
import BoardSupport.Text.Digits

/-! Text written straight to an OLED panel, with a cursor but no buffer. -/
namespace BoardSupport.Oled

/-- Where the next character goes. After the last cell of a line comes the next line, and after the
last line the first. -/
structure Cursor (p : Panel) where
  x : Fin textColumns
  y : Fin p.pages

namespace Cursor

variable {p : Panel}

def origin (p : Panel) : Cursor p := ⟨⟨0, by decide⟩, ⟨0, p.pages_pos⟩⟩

/-- The start of the cursor's line. -/
def lineStart (c : Cursor p) : Cursor p := { c with x := ⟨0, by decide⟩ }

def nextLine (c : Cursor p) : Cursor p :=
  ⟨⟨0, by decide⟩, ⟨(c.y.val + 1) % p.pages, Nat.mod_lt _ p.pages_pos⟩⟩

def advance (c : Cursor p) : Cursor p :=
  if right : c.x.val + 1 < textColumns then { c with x := ⟨c.x.val + 1, right⟩ } else c.nextLine

end Cursor

namespace Writer

inductive Request (p : Panel)
  /-- Has the bus carry a transaction out. -/
  | transfer (t : I2c.Transaction)
  | cursor
  /-- Moves the cursor; nothing is drawn. -/
  | place (c : Cursor p)

end Writer

/-- What a writer needs: the panel's bus, and a place to keep its cursor. -/
abbrev Writer (ε : Type) (p : Panel) : Interface where
  Request := Writer.Request p
  Reply
    | .transfer _ => Except ε Unit
    | .cursor => Cursor p
    | .place _ => Unit

namespace Writer

variable {ε α : Type} {p : Panel}

/-- Writing, which ends at the first transaction the bus refuses. The cursor keeps the moves made
until then. -/
abbrev Writing (ε : Type) (p : Panel) := ExceptT ε (Program (Writer ε p))

def cursor : Writing ε p (Cursor p) := ExceptT.lift (Program.call (I := Writer ε p) .cursor)

def place (c : Cursor p) : Writing ε p Unit := ExceptT.lift (Program.call (I := Writer ε p) (.place c))

/-- Acts on the panel directly. -/
def onPanel (s : Session ε α) : Writing ε p α :=
  ExceptT.mk (s.run.interpret fun t => Program.call (I := Writer ε p) (.transfer t))

def newline : Writing ε p Unit := do place (← cursor).nextLine

def carriageReturn : Writing ε p Unit := do place (← cursor).lineStart

/-- Draws a character at the cursor and moves on. Line feed and carriage return only move. -/
def put (c : UInt8) : Writing ε p Unit := do
  if c = 10 then newline
  else if c = 13 then carriageReturn
  else
    let here ← cursor
    onPanel (p.setCursor here.x here.y)
    onPanel (writeGlyph c)
    place here.advance

def write (s : String) : Writing ε p Unit := (Text.bytes s).forM put

/-- Blanks the cursor's line and returns to its start. -/
def clearLine : Writing ε p Unit := do
  carriageReturn
  let here ← cursor
  onPanel (p.setCursor 0 here.y)
  onPanel (writeRun 0 columns)

end Writer

end BoardSupport.Oled
