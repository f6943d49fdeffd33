import BoardSupport.Bus
import BoardSupport.Serial.Link

/-! The processing system's serial port, which has queues on both sides. It stays at its reset
rate and serves as a second console. -/
namespace BoardSupport

/-- A processing-system serial port with its registers at `base`. -/
structure PsUart where
  base : Address

namespace PsUart

def control (u : PsUart) : Address := Bus.word u.base 0

def status (u : PsUart) : Address := Bus.word u.base 11

/-- Both ends of the queues: stores send, loads receive. -/
def queue (u : PsUart) : Address := Bus.word u.base 12

/-- Enables both directions and empties both queues. -/
def setup (u : PsUart) : Program Bus Unit := Bus.store u.control 0x117

/-- Set in the status while nothing is waiting. -/
def receiveEmpty : UInt32 := 0x02

/-- Set in the status while the transmit queue has no room. -/
def transmitFull : UInt32 := 0x10

/-- Waits for room in the transmit queue and sends a byte. -/
def send (u : PsUart) (byte : UInt8) : Program Bus Unit := do
  Program.waitUntil (return (← Bus.load u.status) &&& transmitFull == 0)
  Bus.store u.queue byte.toUInt32

def poll (u : PsUart) : Program Bus (Option UInt8) := do
  if (← Bus.load u.status) &&& receiveEmpty != 0 then
    return none
  else
    return some (← Bus.load u.queue).toUInt8

/-- Carries out the requests of a byte stream on the registers. What was sent drains by itself,
so flushing waits for nothing. -/
def carry (u : PsUart) : (r : Link.Request) → Program Bus (Link.Reply r)
  | .send byte => u.send byte
  | .poll => u.poll
  | .flush => return ()

def runLink (u : PsUart) {α : Type} (p : Program Link α) : Program Bus α := p.interpret u.carry

end PsUart

end BoardSupport
