import BoardSupport.Display.Text

/-! The primary console: a terminal of the size of the text display, shown on it after every
change. -/
namespace BoardSupport

/-- A terminal and the display that shows it. -/
structure Console where
  display : TextDisplay
  terminal : Terminal TextDisplay.columns TextDisplay.lines

namespace Console

/-- A console with a blank terminal. Nothing is drawn yet. -/
def onDisplay (display : TextDisplay) : Console := ⟨display, .empty _ _⟩

def refresh (c : Console) : Program Bus Unit := c.display.refresh c.terminal

/-- Changes the terminal and redraws the screen. -/
def update (c : Console) (f : Terminal TextDisplay.columns TextDisplay.lines →
    Terminal TextDisplay.columns TextDisplay.lines) : Program Bus Console := do
  let c := { c with terminal := f c.terminal }
  c.refresh
  return c

def putByte (c : Console) (b : UInt8) : Program Bus Console := c.update (·.writeByte b)

/-- Writes a text and redraws once, at its end. -/
def write (c : Console) (s : String) : Program Bus Console := c.update (·.write s)

/-- Writes several texts, with a redraw after each. -/
def writeAll (c : Console) (texts : List String) : Program Bus Console := texts.foldlM write c

def clear (c : Console) : Program Bus Console := c.update (·.clear)

end Console

end BoardSupport
