import BoardSupport.Board
import BoardSupport.Serial.Uart

/-! What whole programs need of the machine they run on, and how they start. -/
namespace BoardSupport.Firmware

namespace Machine

inductive Request
  | bus (r : Bus.Request)
  /-- Puts a byte into memory. -/
  | storeByte (address : UInt32) (byte : UInt8)
  /-- Leaves for the program at an address. -/
  | jump (address : Address)
  deriving DecidableEq, Repr

end Machine

/-- A machine: a bus, memory by the byte, and a way to other programs, which do not come back. -/
abbrev Machine : Interface where
  Request := Machine.Request
  Reply
    | .bus r => Bus.Reply r
    | .storeByte .. => Unit
    | .jump _ => Empty

namespace Machine

def onBus {α : Type} (p : Program Bus α) : Program Machine α :=
  p.interpret fun r => Program.call (I := Machine) (.bus r)

def jump {α : Type} (address : Address) : Program Machine α :=
  .ask (I := Machine) (.jump address) fun never => nomatch never

end Machine

/-- The serial port that programs talk on. -/
def uart : Uart := ⟨Platform.uartBase⟩

def gpio : Gpio := ⟨Platform.gpioBase⟩

/-- The rate that programs talk at, the same as the bootloader's. -/
def baud : UInt32 := 9600

/-- Says which program runs and where, once the serial port has its rate. -/
def greet (board : Board) (name : String) : Program Bus Unit := do
  let rate ← uart.setBaud baud
  uart.write ("\r\nThe FPCA has booted! (" ++ name ++ ", " ++ board.name ++ ")\n")
  if let .error e := rate then
    uart.write ("can't set " ++ toString baud.toNat ++ " baud: " ++ Text.debug e ++ "\n")
  board.report name

/-- How every program starts: it sets the board up, leaves for the bootloader if the boot switch is
up, and says what it is. -/
def startup (board : Board) (name : String) : Program Machine Unit := do
  Machine.onBus board.configure
  if ← Machine.onBus (gpio.switchUp Platform.bootSwitch) then
    Machine.jump Platform.bootloaderBase
  Machine.onBus (greet board name)

end BoardSupport.Firmware
