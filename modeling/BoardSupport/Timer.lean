import BoardSupport.Bus
import BoardSupport.Delay

/-! The hardware timer: a count that returns to zero on reaching its threshold. -/
namespace BoardSupport

/-- A timer with its registers at `base`. -/
structure Timer where
  base : Address

namespace Timer

def count (t : Timer) : Address := Bus.word t.base 0

def control (t : Timer) : Address := Bus.word t.base 1

def top (t : Timer) : Address := Bus.word t.base 2

def pulse (t : Timer) : Address := Bus.word t.base 3

def runBit : UInt32 := 0x1

def interruptBit : UInt32 := 0x2

def pulseBit : UInt32 := 0x4

/-- Written to forget an overflow. -/
def clearOverflowBit : UInt32 := 0x100

/-- Read to learn of an overflow. -/
def overflowBit : UInt32 := 0x10000

def time (t : Timer) : Program Bus UInt32 := Bus.load t.count

def start (t : Timer) : Program Bus Unit := Bus.setBits t.control runBit

def stop (t : Timer) : Program Bus Unit := Bus.clearBits t.control runBit

def isRunning (t : Timer) : Program Bus Bool := return (← Bus.load t.control) &&& runBit != 0

def enableInterrupt (t : Timer) : Program Bus Unit := Bus.setBits t.control interruptBit

def disableInterrupt (t : Timer) : Program Bus Unit := Bus.clearBits t.control interruptBit

def enablePulse (t : Timer) : Program Bus Unit := Bus.setBits t.control pulseBit

def disablePulse (t : Timer) : Program Bus Unit := Bus.clearBits t.control pulseBit

def clearOverflow (t : Timer) : Program Bus Unit := Bus.clearBits t.control clearOverflowBit

def hasOverflowed (t : Timer) : Program Bus Bool :=
  return (← Bus.load t.control) &&& overflowBit != 0

def setThreshold (t : Timer) (value : UInt32) : Program Bus Unit := Bus.store t.top value

def threshold (t : Timer) : Program Bus UInt32 := Bus.load t.top

def setPulseThreshold (t : Timer) (value : UInt32) : Program Bus Unit := Bus.store t.pulse value

def pulseThreshold (t : Timer) : Program Bus UInt32 := Bus.load t.pulse

/-- Waits by watching the count, which it starts if it stands still. The count is assumed to run
freely: a threshold within reach would end the wait late or never. -/
def delay (t : Timer) (ns : UInt32) : Program Bus Unit := do
  let ticks := Delay.cycles ns Platform.referenceClock
  unless ← t.isRunning do t.start
  let begin ← t.time
  Program.waitUntil (return (← t.time) - begin ≥ ticks)

/-- Waits for each of several durations in turn. -/
def delays (t : Timer) (waits : List UInt32) : Program Bus Unit := waits.forM t.delay

end Timer

end BoardSupport
