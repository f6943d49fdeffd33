import BoardSupport.Bench.Log
import BoardSupport.Delay
import BoardSupport.Program.Run
import BoardSupport.Spi.Channel
import BoardSupport.Text.Digits

/-! An SPI device that answers from a script. -/
namespace BoardSupport.Bench

structure SpiScript where
  replies : List UInt8
  /-- What is read once the script is over. -/
  idle : UInt8
  log : Log := {}

/-- The token of what was asked of an SPI device; of a read, with what it answered. -/
def spiToken : Spi.Channel.Request → UInt8 → String
  | .select, _ => "S"
  | .deselect, _ => "D"
  | .write byte, _ => "W" ++ Text.hexPadded 2 byte.toNat
  | .read, answer => "R" ++ Text.hexPadded 2 answer.toNat
  | .throttle clocks, _ => "T" ++ toString clocks.toNat
  | .delay ms, _ => " ".intercalate ((Delay.milliseconds ms).map fun ns => "N" ++ toString ns.toNat)

namespace SpiScript

def device : Device Spi.Channel Empty SpiScript
  | .read => fun s =>
    let b := s.replies.headD s.idle
    .ok b { s with replies := s.replies.tail, log := s.log.add (spiToken .read b) }
  | .select => fun s => .ok () { s with log := s.log.add (spiToken .select 0) }
  | .deselect => fun s => .ok () { s with log := s.log.add (spiToken .deselect 0) }
  | .write byte => fun s => .ok () { s with log := s.log.add (spiToken (.write byte) 0) }
  | .throttle clocks => fun s => .ok () { s with log := s.log.add (spiToken (.throttle clocks) 0) }
  | .delay ms => fun s => .ok () { s with log := s.log.add (spiToken (.delay ms) 0) }

end SpiScript

end BoardSupport.Bench
