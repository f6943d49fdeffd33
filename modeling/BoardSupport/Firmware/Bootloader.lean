import BoardSupport.Boot.Receiver
import BoardSupport.Firmware.Machine

/-! The resident bootloader, which loads one image over the serial port and tells how that went. -/
namespace BoardSupport.Firmware.Bootloader

/-- What a bootloader is built for. -/
structure Configuration where
  uart : UInt32
  baud : UInt32
  window : Boot.Window
  deriving DecidableEq, Repr

namespace Configuration

def port (c : Configuration) : Uart := ⟨c.uart.toUInt64⟩

end Configuration

def hexWord (word : UInt32) : List UInt8 :=
  [28, 24, 20, 16, 12, 8, 4, 0].map fun shift : UInt32 =>
    UInt8.ofNat (Text.hexDigit ((word >>> shift) &&& 0xF).toNat).toNat

/-- Runs a program on the bus of the machine. Its addresses have 32 bits, so the registers of a port may
go on at address zero. -/
def onBus {α : Type} (p : Program Bus α) : Program Machine α := Machine.onBus (Bus.onNarrow p)

/-- Carries out what the receiver needs on a serial port and in memory. -/
def carry (u : Uart) : (r : Boot.Target.Request) → Program Machine (Boot.Target.Reply r)
  | .link r => onBus (u.carry r)
  | .store address byte => Program.call (I := Machine) (.storeByte address byte)

/-- What is told of a transfer. -/
def verdict : Except Boot.BootError Boot.Image → Program Link Unit
  | .ok _ => do
    Link.sendLine "ETX Received!"
    Link.sendLine "Bootloader Done, set SW15 back to 0 and reset!"
  | .error (.outOfBounds address) => do
    Link.sendAll (Text.bytes "Image outside load window at 0x")
    Link.sendAll (hexWord address)
    Link.sendLine ""
  | .error _ => Link.sendLine "Image runs past the end of memory!"

def load (u : Uart) (window : Boot.Window) : Program Machine Unit := do
  onBus (u.runLink (Link.sendLine "Bootloader Ready!"))
  let result ← (Boot.receive window).interpret (carry u)
  onBus (u.runLink (verdict result))

/-- Sets the rate and loads one image. A rate that is refused leaves no line to talk on. -/
def main (c : Configuration) : Program Machine Unit := do
  if let .ok () ← onBus (c.port.setBaud c.baud) then load c.port c.window

end BoardSupport.Firmware.Bootloader
