import BoardSupport.Firmware.Machine
import BoardSupport.I2c.BitBang
import BoardSupport.Oled.Writer
import BoardSupport.SpinDelay

/-! A program for an OLED panel: it flashes the panel, writes to it directly, and then shows a
terminal. -/
namespace BoardSupport.Firmware.OledPanel

open Oled

variable (split : Delay.Splitting)

def panel : Panel := .standard

/-- Work on the panel, which ends at the first transaction the bus refuses. -/
abbrev Work := ExceptT I2c.I2cError (Program Bus)

/-- Carries a transaction out on the two output pins. -/
def carryTransaction (t : I2c.Transaction) : Program Bus (Except I2c.I2cError Unit) :=
  (I2c.BitBang.transaction I2c.BitBang.standardQuarter t).interpret (gpio.carry SpinDelay.wait)

def onPanel {α : Type} (s : Session I2c.I2cError α) : Work α :=
  ExceptT.mk (s.run.interpret carryTransaction)

/-- Carries out what a writer asks for, and keeps its cursor. -/
def carryWriter : (r : Writer.Request panel) → Cursor panel →
    Program Bus ((Writer I2c.I2cError panel).Reply r × Cursor panel)
  | .transfer t, c => do return (← carryTransaction t, c)
  | .cursor, c => return (c, c)
  | .place c, _ => return ((), c)

/-- Writes with a new cursor. -/
def writing {α : Type} (w : Writer.Writing I2c.I2cError panel α) : Work α :=
  ExceptT.mk do return (← w.run.interpretWith carryWriter (.origin panel)).1

def waitMilliseconds (ms : UInt32) : Work Unit := ExceptT.lift (SpinDelay.milliseconds split ms)

/-- Flashes the whole panel and then its first line. -/
def bringUp : Work Unit := do
  onPanel Oled.start
  onPanel lightAll
  waitMilliseconds split 500
  onPanel showMemory
  onPanel panel.clear
  onPanel (panel.setCursor 0 0)
  onPanel ((List.range textColumns).forM fun _ => writeSolid)
  waitMilliseconds split 500
  onPanel panel.clear

def greeting : Work Unit := writing do
  Writer.write "Hello, FPCA!\n"
  Writer.write (toString panel.pages ++ " pages")
  Writer.newline

/-- Does some work, and says so if it fails. -/
def reporting (work : Work Unit) : Program Bus Unit := do
  if let .error e ← work.run then uart.write ("OLED error: " ++ Text.debug e ++ "\n")

/-- A terminal with one cell for each of the panel's. -/
abbrev PanelTerminal := Terminal textColumns panel.pages

def blankTerminal : PanelTerminal := .empty _ _ textColumns_pos panel.pages_pos

def tick (state : PanelTerminal × UInt32) : Program Bus (PanelTerminal × UInt32) := do
  let (terminal, n) := state
  let terminal := terminal.write ("tick " ++ toString n.toNat ++ "\n")
  reporting (onPanel (panel.refresh terminal))
  SpinDelay.milliseconds split 500
  return (terminal, n + 1)

def demonstrate : Program Bus Empty := do
  reporting (bringUp split)
  uart.write "OLED initialised\n"
  reporting greeting
  SpinDelay.milliseconds split 2000
  Program.forever (tick split) (blankTerminal, 0)

def main (board : Board) : Program Machine Empty := do
  startup board "oled"
  Machine.onBus (demonstrate split)

end BoardSupport.Firmware.OledPanel
