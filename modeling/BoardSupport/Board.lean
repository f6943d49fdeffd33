import BoardSupport.Gpio
import BoardSupport.Serial.PsUart

/-! The boards. The system on chip is the same on each; what surrounds it differs. -/
namespace BoardSupport

inductive Board
  | basys3
  | pynqZ2
  deriving DecidableEq, Repr

namespace Board

/-- The name that banners show. -/
def name : Board → String
  | basys3 => "Basys3"
  | pynqZ2 => "Pynq-Z2"

/-- The bit of the button word that reports a button. Four buttons in a row stand in for the cross
in the same order. -/
def buttonBit (_ : Board) : Button → UInt32
  | .down => 0
  | .right => 1
  | .left => 2
  | .up => 3

def psUart : PsUart := ⟨Platform.psUartBase⟩

/-- Sets up what the board has beyond the chip; done once at startup. -/
def configure : Board → Program Bus Unit
  | basys3 => return ()
  | pynqZ2 => psUart.setup

/-- Writes a line to the board's second console, if it has one. -/
def report : Board → String → Program Bus Unit
  | basys3, _ => return ()
  | pynqZ2, s => psUart.runLink (Link.sendLine s)

end Board

end BoardSupport
