import BoardSupport.Program
import BoardSupport.Text.Digits
import BoardSupport.Word

/-! Polled byte streams. Whatever moves single bytes and says whether one is waiting can carry
words, lines and transfers. -/
namespace BoardSupport

namespace Link

inductive Request
  | send (byte : UInt8)
  /-- Takes the byte that is waiting, if one is. -/
  | poll
  /-- Waits until everything sent has left the transmitter. -/
  | flush
  deriving DecidableEq, Repr

end Link

abbrev Link : Interface where
  Request := Link.Request
  Reply
    | .poll => Option UInt8
    | _ => Unit

namespace Link

def send (byte : UInt8) : Program Link Unit := Program.call (I := Link) (.send byte)

def poll : Program Link (Option UInt8) := Program.call (I := Link) .poll

def flush : Program Link Unit := Program.call (I := Link) .flush

def receive : Program Link UInt8 := Program.untilSome poll

def sendAll (bytes : List UInt8) : Program Link Unit := bytes.forM send

/-- Carriage return and line feed. -/
def lineEnd : List UInt8 := [13, 10]

def sendLine (s : String) : Program Link Unit := do
  sendAll (Text.bytes s)
  sendAll lineEnd

/-- Waits for a word, least significant byte first. -/
def receiveWord : Program Link UInt32 := do
  let b0 ← receive
  let b1 ← receive
  let b2 ← receive
  let b3 ← receive
  return Word.ofLittleEndian b0 b1 b2 b3

end Link

end BoardSupport
