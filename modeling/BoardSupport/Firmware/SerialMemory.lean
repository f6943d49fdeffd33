import BoardSupport.Firmware.Machine
import BoardSupport.Memory.Psram
import BoardSupport.Memory.Test
import BoardSupport.Spi.Master

/-! A program for the serial memory: it asks for the id, tries three bytes and tests the whole. -/
namespace BoardSupport.Firmware.SerialMemory

def master : Spi.Master := ⟨Platform.psramBase⟩

/-- Runs the memory's driver on the SPI master, which needs no waits. -/
def onMemory {α : Type} (p : Program Spi.Channel α) : Program Bus α :=
  p.interpret (master.carry fun _ => return ())

/-- Writes a byte, reads it back and tells how that went. -/
def tryByte (address : UInt32) (byte : UInt8) : Program Bus Unit := do
  onMemory (Psram.writeByte address byte)
  let back ← onMemory (Psram.readByte address)
  let place := Text.hexMarked address.toNat
  if back = byte then uart.write (place ++ ": ok\n")
  else uart.write (place ++ ": wrote " ++ Text.hexMarked byte.toNat ++ ", read " ++
    Text.hexMarked back.toNat ++ "\n")

def demonstrate : Program Bus Unit := do
  onMemory Psram.reset
  let id ← onMemory Psram.readId
  uart.write ("MF ID: " ++ Text.hexMarked id.manufacturer.toNat ++ ", KGD: " ++
    Text.hexMarked id.knownGood.toNat ++ "\n")
  uart.write ("density: " ++ toString id.density.toNat ++ ", " ++ toString id.megabits ++ " Mbit\n")
  tryByte 0x000000 0xA5
  tryByte 0x123456 0x5A
  tryByte 0x7FFFFF 0x42
  uart.write "testing...\n"
  match ← onMemory ((Memory.testAll Psram.words).run.interpret Psram.carry) with
  | .ok () => uart.write "PSRAM passed\n"
  | .error e => uart.write ("PSRAM failed: " ++ Text.debug e ++ "\n")

def main (board : Board) : Program Machine Unit := do
  startup board "psram"
  Machine.onBus demonstrate

end BoardSupport.Firmware.SerialMemory
