import BoardSupport.Program

/-! The two lines of an I²C bus as output pins. There is no input, so a master that drives them can
neither see an acknowledgement nor read. -/
namespace BoardSupport.I2c

namespace Pins

inductive Request
  | clock (high : Bool)
  | data (high : Bool)
  /-- Waits this many nanoseconds. -/
  | delay (ns : UInt32)
  deriving DecidableEq, Repr

end Pins

abbrev Pins : Interface where
  Request := Pins.Request
  Reply _ := Unit

namespace Pins

def clock (high : Bool) : Program Pins Unit := Program.call (I := Pins) (.clock high)

def data (high : Bool) : Program Pins Unit := Program.call (I := Pins) (.data high)

def delay (ns : UInt32) : Program Pins Unit := Program.call (I := Pins) (.delay ns)

end Pins

end BoardSupport.I2c
