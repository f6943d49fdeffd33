import BoardSupport.Font
import BoardSupport.I2c.Controller
import BoardSupport.Terminal

/-! The controller of an OLED panel. Its memory is organised in pages of eight pixel rows with one
byte for each column, so a page is a line of text and eight bytes are a glyph. -/
namespace BoardSupport.Oled

/-- A panel of one to eight pages, each a line of text. -/
structure Panel where
  pages : Nat
  pages_pos : 0 < pages
  pages_le : pages ≤ 8

/-- A panel of so many pages, if the controller can drive one. -/
def Panel.ofPages (pages : Nat) : Except Fault Panel :=
  if h : 0 < pages ∧ pages ≤ 8 then .ok ⟨pages, h.1, h.2⟩ else .error .pageCount

/-- A panel of 128 by 64 pixels. -/
def Panel.standard : Panel := ⟨8, by decide, by decide⟩

/-- Pixel columns of a panel. -/
def columns : Nat := 128

def textColumns : Nat := 16

theorem textColumns_pos : 0 < textColumns := by decide

def cellWidth : Nat := 8

/-- How the memory pointer moves after each data byte. -/
inductive AddressMode
  /-- Along the columns, then on to the next page. -/
  | horizontal
  /-- Down the pages, then on to the next column. -/
  | vertical
  /-- Along one page only. -/
  | page
  deriving DecidableEq, Repr

def AddressMode.code : AddressMode → UInt8
  | horizontal => 0
  | vertical => 1
  | page => 2

/-- A step of a driver, which ends at the first transaction the bus refuses. -/
abbrev Session (ε : Type) := ExceptT ε (Program (I2c.Controller ε))

def busAddress : UInt8 := 0x3C

variable {ε : Type}

/-- Writes to the controller in one transaction. Parts only divide the bytes. -/
def transfer (parts : List (List UInt8)) : Session ε Unit :=
  ExceptT.mk (Program.call (I := I2c.Controller ε) ⟨busAddress, parts.map .write⟩)

def command (codes : List UInt8) : Session ε Unit := transfer [[0x00], codes]

/-- Starts the charge pump and lights the display. -/
def start : Session ε Unit := do
  command [0x8D, 0x14]
  command [0xAF]

def sleep : Session ε Unit := command [0xAE]

/-- Lights every pixel, whatever memory holds. -/
def lightAll : Session ε Unit := command [0xA5]

def showMemory : Session ε Unit := command [0xA4]

def setAddressMode (mode : AddressMode) : Session ε Unit := command [0x20, mode.code]

/-- Sets the pages, from first to last, that the pointer runs over. -/
def setPageRange (first last : UInt8) : Session ε Unit := command [0x22, first, last]

/-- Sets the columns, from first to last, that the pointer runs over. -/
def setColumnRange (first last : UInt8) : Session ε Unit := command [0x21, first, last]

def writeByte (d : UInt8) : Session ε Unit := transfer [[0xC0, d]]

def writeRun (d : UInt8) (n : Nat) : Session ε Unit := transfer [0x40 :: List.replicate n d]

def writeData (data : List UInt8) : Session ε Unit := transfer [[0x40], data]

/-- Draws the cell of a character where the pointer is. -/
def writeGlyph (c : UInt8) : Session ε Unit := writeData (Font.glyph c).toList

def writeSolid : Session ε Unit := writeData Font.solid.toList

namespace Panel

def lastPage (p : Panel) : UInt8 := UInt8.ofNat (p.pages - 1)

/-- Sets every byte of the panel's memory. -/
def fill (p : Panel) (d : UInt8) : Session ε Unit := do
  setAddressMode .horizontal
  setColumnRange 0 127
  setPageRange 0 p.lastPage
  (List.range p.pages).forM fun _ => writeRun d columns

def clear (p : Panel) : Session ε Unit := p.fill 0

/-- Moves the pointer to a character cell, the nearest one if there is none at the place asked for.
What is drawn next runs on from there. -/
def setCursor (p : Panel) (column line : Nat) : Session ε Unit := do
  setAddressMode .horizontal
  setColumnRange (UInt8.ofNat (min column (textColumns - 1) * cellWidth)) 127
  setPageRange (UInt8.ofNat (min line (p.pages - 1))) p.lastPage

/-- Draws one line of a terminal: as many cells as fit, and dark columns up to the edge. -/
def drawLine (p : Panel) (line : Nat) (cells : List UInt8) : Session ε Unit := do
  p.setCursor 0 line
  let shown := cells.take textColumns
  shown.forM writeGlyph
  let rest := (textColumns - shown.length) * cellWidth
  if rest > 0 then writeRun 0 rest

/-- Draws a terminal from its top row, as far as it fits. -/
def refresh {w h : Nat} (p : Panel) (t : Terminal w h) : Session ε Unit :=
  (t.rows.take p.pages).zipIdx.forM fun (row, line) => p.drawLine line row.toList

end Panel

end BoardSupport.Oled
