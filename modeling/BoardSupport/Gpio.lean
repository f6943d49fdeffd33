import BoardSupport.Bus
import BoardSupport.I2c.Pins

/-! Lights, the seven-segment display, switches, buttons, and the two output pins that serve as an
I²C bus. -/
namespace BoardSupport

/-- The directions a button can stand for. -/
inductive Button
  | up
  | left
  | right
  | down
  deriving DecidableEq, Repr

/-- A block of pins with its registers at `base`. -/
structure Gpio where
  base : Address

namespace Gpio

def lights (g : Gpio) : Address := Bus.word g.base 0

def segments (g : Gpio) : Address := Bus.word g.base 1

def clockPin (g : Gpio) : Address := Bus.word g.base 2

def dataPin (g : Gpio) : Address := Bus.word g.base 3

def buttonWord (g : Gpio) : Address := Bus.word g.base 64

def switchWord (g : Gpio) : Address := Bus.word g.base 65

def setLights (g : Gpio) (value : UInt32) : Program Bus Unit := Bus.store g.lights value

/-- Shows a value in hex on the seven-segment display. -/
def setSegments (g : Gpio) (value : UInt32) : Program Bus Unit := Bus.store g.segments value

def buttons (g : Gpio) : Program Bus UInt32 := Bus.load g.buttonWord

def switches (g : Gpio) : Program Bus UInt32 := Bus.load g.switchWord

/-- Whether the button that reports in bit `n` is down. -/
def buttonDown (g : Gpio) (n : UInt32) : Program Bus Bool := return Word.bit (← g.buttons) n != 0

/-- Whether switch `n` is up. -/
def switchUp (g : Gpio) (n : UInt32) : Program Bus Bool := return Word.bit (← g.switches) n != 0

/-- Drives a single-bit output, of which only bit 0 of the word matters. -/
def drive (pin : Address) (high : Bool) : Program Bus Unit := Bus.store pin (if high then 1 else 0)

/-- Carries the levels of the I²C lines out on the two output pins, and waits by `wait`. -/
def carry (g : Gpio) (wait : UInt32 → Program Bus Unit) :
    (r : I2c.Pins.Request) → Program Bus (I2c.Pins.Reply r)
  | .clock high => drive g.clockPin high
  | .data high => drive g.dataPin high
  | .delay ns => wait ns

end Gpio

end BoardSupport
