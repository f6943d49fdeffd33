import BoardSupport.Program
import BoardSupport.Word

/-! Bytes over SPI, as the drivers of SPI devices ask for them. -/
namespace BoardSupport.Spi

namespace Channel

inductive Request
  | select
  | deselect
  | write (byte : UInt8)
  | read
  /-- Sets the number of system clocks between the edges of the SPI clock. -/
  | throttle (clocks : UInt8)
  /-- Waits at least this many milliseconds. -/
  | delay (ms : UInt32)
  deriving DecidableEq, Repr

end Channel

/-- What a driver of an SPI device needs: the lines, the clock rate, and time. -/
abbrev Channel : Interface where
  Request := Channel.Request
  Reply
    | .read => UInt8
    | _ => Unit

namespace Channel

def select : Program Channel Unit := Program.call (I := Channel) .select

def deselect : Program Channel Unit := Program.call (I := Channel) .deselect

def write (byte : UInt8) : Program Channel Unit := Program.call (I := Channel) (.write byte)

def read : Program Channel UInt8 := Program.call (I := Channel) .read

def throttle (clocks : UInt8) : Program Channel Unit := Program.call (I := Channel) (.throttle clocks)

def delay (ms : UInt32) : Program Channel Unit := Program.call (I := Channel) (.delay ms)

def writeAll (bytes : List UInt8) : Program Channel Unit := bytes.forM write

/-- Reads `n` bytes after those in `earlier`, which holds the latest first. -/
def readAfter (earlier : List UInt8) : (n : Nat) → Program Channel (List UInt8)
  | 0 => return earlier.reverse
  | n + 1 => do readAfter ((← read) :: earlier) n

def readAll (n : Nat) : Program Channel (List UInt8) := readAfter [] n

/-- Reads a byte into each place of a buffer, from the first to the last. -/
def fill {n : Nat} (buffer : Vector UInt8 n) : Program Channel (Vector UInt8 n) :=
  buffer.mapM fun _ => read

/-- The first of at most `polls` bytes read that satisfies `p`. -/
def readUntil (p : UInt8 → Bool) : (polls : Nat) → Program Channel (Option UInt8)
  | 0 => return none
  | n + 1 => do
    let b ← read
    if p b then return some b else readUntil p n

end Channel

end BoardSupport.Spi
