import BoardSupport.Bus
import BoardSupport.Serial.Link
import BoardSupport.Text.Described

/-! The serial port. Neither side has a queue: a byte sent while the transmitter is busy is lost,
and so is a received byte that is not collected before the next one. -/
namespace BoardSupport

/-- A serial port with its registers at `base`. -/
structure Uart where
  base : Address

/-- Why a rate was refused. -/
inductive BaudError
  /-- The rate is zero, or the reference clock is too slow for it. -/
  | unreachable
  deriving DecidableEq, Repr

instance : Text.Describe BaudError where
  describe
    | .unreachable => .bare "Unreachable"

/-- The divisor that makes `rate` from a reference clock. -/
def baudDivisor (clock rate : UInt32) : Except BaudError UInt32 :=
  if rate = 0 ∨ clock / rate = 0 then .error .unreachable else .ok (clock / rate)

namespace Uart

def dataOut (u : Uart) : Address := Bus.word u.base 0

/-- Non-zero while the transmitter can take a byte. -/
def idle (u : Uart) : Address := Bus.word u.base 1

def divisor (u : Uart) : Address := Bus.word u.base 2

def dataIn (u : Uart) : Address := Bus.word u.base 3

/-- Non-zero while a received byte is waiting. -/
def valid (u : Uart) : Address := Bus.word u.base 4

def setBaud (u : Uart) (rate : UInt32) : Program Bus (Except BaudError Unit) :=
  match baudDivisor Platform.referenceClock rate with
  | .ok d => do
    Bus.store u.divisor d
    return .ok ()
  | .error e => return .error e

def canSend (u : Uart) : Program Bus Bool := return (← Bus.load u.idle) != 0

def hasReceived (u : Uart) : Program Bus Bool := return (← Bus.load u.valid) != 0

/-- Waits for the transmitter and gives it a byte. -/
def send (u : Uart) (byte : UInt8) : Program Bus Unit := do
  Program.waitUntil u.canSend
  Bus.store u.dataOut byte.toUInt32

def poll (u : Uart) : Program Bus (Option UInt8) := do
  if ← u.hasReceived then
    return some (← Bus.load u.dataIn).toUInt8
  else
    return none

/-- Carries out the requests of a byte stream on the registers. -/
def carry (u : Uart) : (r : Link.Request) → Program Bus (Link.Reply r)
  | .send byte => u.send byte
  | .poll => u.poll
  | .flush => Program.waitUntil u.canSend

def runLink (u : Uart) {α : Type} (p : Program Link α) : Program Bus α := p.interpret u.carry

/-- The bytes of a text with a carriage return before each line feed. -/
def withReturns (s : String) : List UInt8 :=
  (Text.bytes s).flatMap fun b => if b = 10 then [13, 10] else [b]

/-- Sends a text, a line feed as carriage return and line feed. -/
def write (u : Uart) (s : String) : Program Bus Unit := (withReturns s).forM u.send

end Uart

end BoardSupport
