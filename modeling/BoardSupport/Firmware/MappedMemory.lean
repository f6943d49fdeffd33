import BoardSupport.Firmware.Machine
import BoardSupport.Memory.Test
import BoardSupport.Timer

/-! A program for the window onto the serial memory: it tests the memory and takes the time. -/
namespace BoardSupport.Firmware.MappedMemory

def timer : Timer := ⟨Platform.timerBase⟩

def region : Region := ⟨Platform.psramBase, 1024⟩

/-- Runs one test and tells how it went. -/
def report (name : String) (test : Memory.Test Unit) : Program Bus Unit := do
  match ← test.run.interpret region.carry with
  | .ok () => uart.write (name ++ ": passed\n")
  | .error e => uart.write (name ++ ": failed, " ++ Text.debug e ++ "\n")

/-- Clock cycles of a microsecond. -/
def cyclesPerMicrosecond : UInt32 := Platform.referenceClock / 1000000

def demonstrate : Program Bus Unit := do
  uart.write ("testing " ++ toString region.bytes ++ " bytes at " ++
    Text.hexMarked region.base.toNat ++ "\n")
  timer.stop
  timer.setThreshold 0
  timer.start
  let begin ← timer.time
  report "data bus" (Memory.testData region.words 0)
  report "address bus" (Memory.testAddresses region.words)
  report "device" (Memory.testWords region.words)
  let ticks := (← timer.time) - begin
  uart.write ("took " ++ toString (ticks / cyclesPerMicrosecond).toNat ++ " us\n")

def main (board : Board) : Program Machine Unit := do
  startup board "memtest"
  Machine.onBus demonstrate

end BoardSupport.Firmware.MappedMemory
