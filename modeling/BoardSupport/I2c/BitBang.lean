import BoardSupport.I2c.Controller
import BoardSupport.I2c.Pins

/-! A write-only I²C master that drives the two lines with fixed delays. It has no input, so it
stretches no clock, checks no acknowledgement and refuses every read. -/
namespace BoardSupport.I2c.BitBang

/-- A quarter of the period of a 100 kHz clock, in nanoseconds. -/
def standardQuarter : UInt32 := 2500

def quarter (q : UInt32) : Program Pins Unit := Pins.delay q

/-- Waits a whole clock period, if a word can hold it. -/
def period (q : UInt32) : Program Pins Unit :=
  if q.toNat * 4 < UInt32.size then Pins.delay (q * 4) else .fault .mulOverflow

/-- START: the data line falls while the clock is high. -/
def start (q : UInt32) : Program Pins Unit := do
  Pins.clock true
  Pins.data true
  period q
  Pins.data false
  period q

/-- Clocks out one bit. Leaves the clock low. -/
def writeBit (q : UInt32) (level : Bool) : Program Pins Unit := do
  quarter q
  Pins.data level
  quarter q
  Pins.clock true
  quarter q
  quarter q
  Pins.clock false

/-- The bits of a byte, most significant first. -/
def bits (byte : UInt8) : List Bool :=
  [0x80, 0x40, 0x20, 0x10, 0x08, 0x04, 0x02, 0x01].map fun mask : UInt8 => byte &&& mask != 0

/-- Clocks out a byte and one acknowledgement bit with the data line released. Leaves both lines
low. -/
def writeByte (q : UInt32) (byte : UInt8) : Program Pins Unit := do
  Pins.clock false
  (bits byte).forM (writeBit q)
  writeBit q true
  quarter q
  Pins.data false
  quarter q

/-- STOP: the data line rises while the clock is high. -/
def stop (q : UInt32) : Program Pins Unit := do
  Pins.data false
  Pins.clock true
  period q
  Pins.data true
  period q

/-- Carries one transaction out. One that reads anything drives nothing. -/
def transaction (q : UInt32) (t : Transaction) : Program Pins (Except I2cError Unit) := do
  if t.hasRead then
    return .error .readUnsupported
  start q
  writeByte q (t.address <<< 1)
  t.written.forM (writeByte q)
  stop q
  return .ok ()

end BoardSupport.I2c.BitBang
