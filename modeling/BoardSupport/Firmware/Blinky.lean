import BoardSupport.Firmware.Machine
import BoardSupport.Timer

/-! A first program for a board: lights follow the buttons, the display counts, the serial port
echoes, and buttons change its rate. -/
namespace BoardSupport.Firmware.Blinky

/-- What is remembered from one round to the next: how many there were, and the buttons that were
down. -/
structure Memory where
  count : UInt32
  held : UInt32
  deriving DecidableEq, Repr

def timer : Timer := ⟨Platform.timerBase⟩

def has (board : Board) (buttons : UInt32) (b : Button) : Bool :=
  Word.bit buttons (board.buttonBit b) != 0

/-- The rate that newly pressed buttons select, with the name of the button that counts. -/
def chosenRate (board : Board) (pressed : UInt32) : Option (String × UInt32) :=
  if has board pressed .left then some ("Left", 9600)
  else if has board pressed .right then some ("Right", 19200)
  else if has board pressed .up then some ("Up", 115200)
  else none

def echo : Program Bus Unit := do
  if let some c ← uart.poll then uart.send c

/-- Changes the rate, once what was said at the old one is out. -/
def changeRate (name : String) (rate : UInt32) : Program Bus Unit := do
  uart.write (name ++ " Button Pressed\n")
  uart.write ("Setting Baud Rate to " ++ toString rate.toNat ++ "\n")
  uart.runLink Link.flush
  if let .error e ← uart.setBaud rate then
    uart.write ("can't: " ++ Text.debug e ++ "\n")

/-- Acts on buttons that were not down before. -/
def act (board : Board) (pressed : UInt32) : Program Bus Unit :=
  match chosenRate board pressed with
  | some (name, rate) => changeRate name rate
  | none => if has board pressed .down then uart.write "Down Button Pressed\n" else return ()

variable (split : Delay.Splitting)

/-- One round. A button acts once each time it is pressed. -/
def round (board : Board) (m : Memory) : Program Bus Memory := do
  let buttons ← gpio.buttons
  gpio.setLights buttons
  echo
  act board (buttons &&& ~~~m.held)
  let count := m.count + 1
  gpio.setSegments count
  timer.delays (split 10)
  return ⟨count, buttons⟩

def main (board : Board) : Program Machine Empty := do
  startup board "blinky"
  Machine.onBus do
    timer.start
    Program.forever (round split board) ⟨0, 0⟩

end BoardSupport.Firmware.Blinky
