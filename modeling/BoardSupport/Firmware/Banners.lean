import BoardSupport.Console
import BoardSupport.Display.Pixel
import BoardSupport.Firmware.Machine
import BoardSupport.SpinDelay

/-! A program for the displays: banners and colour bars, and then numbered lines that scroll. -/
namespace BoardSupport.Firmware.Banners

variable (split : Delay.Splitting)

def display : TextDisplay := ⟨Platform.textBase⟩

def colours : List Colour := [.red, .green, .blue, .yellow, .magenta, .cyan, .white, .grey]

def title : String := "FPCA text console"

/-- A stripe of each colour across the top, a title in the middle, and a line in each colour. -/
def drawBanners : Program Bus Unit := do
  let stripe := TextDisplay.columns / colours.length
  colours.zipIdx.forM fun (c, i) =>
    display.fill (i * stripe) 0 (i * stripe + stripe - 1) 2 c
  let codes := Text.bytes title
  display.string ((TextDisplay.columns - codes.length) / 2) 4 codes .white .blue
  colours.zipIdx.forM fun (c, i) =>
    display.string 2 (6 + i) (Text.bytes "The quick brown fox") c .black

def framebuffer : PixelDisplay := ⟨Platform.framebufferBase⟩

/-- The colours of the bars, from the left. -/
def bars : List UInt32 :=
  [0x00FFFFFF, 0x00FFFF00, 0x0000FFFF, 0x0000FF00, 0x00FF00FF, 0x00FF0000, 0x000000FF, 0x00808080]

/-- Colour bars on the framebuffer, on the board that has one. -/
def drawBars : Board → Program Bus Unit
  | .basys3 => return ()
  | .pynqZ2 => do
    framebuffer.clear 0
    framebuffer.paint fun x => bars.getD (x * bars.length / PixelDisplay.width) 0

def nextLine (state : Console × UInt32) : Program Bus (Console × UInt32) := do
  let (console, n) := state
  let console ← console.writeAll ["line ", toString n.toNat, "\n"]
  SpinDelay.milliseconds split 250
  return (console, n + 1)

def present (board : Board) : Program Bus Empty := do
  let console ← (Console.onDisplay display).clear
  drawBanners
  uart.write "banners drawn\n"
  drawBars board
  SpinDelay.milliseconds split 2000
  let console ← console.clear
  let console ← console.write "Hello from the console!\n"
  let console ← console.writeAll [toString TextDisplay.columns, " columns by ",
    toString TextDisplay.lines, " rows\n"]
  let console ← console.write "tabs:\t1\t2\t3\n"
  Program.forever (nextLine split) (console, 0)

def main (board : Board) : Program Machine Empty := do
  startup board "console"
  Machine.onBus (present split board)

end BoardSupport.Firmware.Banners
