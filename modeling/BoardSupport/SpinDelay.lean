import BoardSupport.Bus
import BoardSupport.Delay

/-! Waiting without hardware, by counting rounds of the idle loop. -/
namespace BoardSupport.SpinDelay

/-- Waits at least `ns` nanoseconds. -/
def wait (ns : UInt32) : Program Bus Unit :=
  Bus.idle (Delay.spins ns Platform.referenceClock)

/-- Waits `ms` milliseconds in parts. -/
def milliseconds (split : Delay.Splitting) (ms : UInt32) : Program Bus Unit := (split ms).forM wait

end BoardSupport.SpinDelay
