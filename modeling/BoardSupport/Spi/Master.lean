import BoardSupport.Bus
import BoardSupport.Spi.Channel

/-! The byte-at-a-time SPI master. Its data register stalls the bus until the exchange is over, so
there is no status to poll. -/
namespace BoardSupport.Spi

/-- An SPI master with its registers at `base`. -/
structure Master where
  base : Address

namespace Master

/-- Storing sends a byte, loading clocks one in. -/
def data (m : Master) : Address := Bus.word m.base 0

/-- Chip select, active low. -/
def chipSelect (m : Master) : Address := Bus.word m.base 1

def throttle (m : Master) : Address := Bus.word m.base 2

/-- Carries out the requests of a driver on the registers, and waits so many milliseconds by `wait`. -/
def carry (m : Master) (wait : UInt32 → Program Bus Unit) :
    (r : Channel.Request) → Program Bus (Channel.Reply r)
  | .select => Bus.store m.chipSelect 0
  | .deselect => Bus.store m.chipSelect 1
  | .write byte => Bus.store m.data byte.toUInt32
  | .read => return (← Bus.load m.data).toUInt8
  | .throttle clocks => Bus.store m.throttle clocks.toUInt32
  | .delay ms => wait ms

end Master

end BoardSupport.Spi
