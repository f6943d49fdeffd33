import BoardSupport.Bench.Log
import BoardSupport.I2c.BitBang
import BoardSupport.Oled.Writer
import BoardSupport.Program.Run
import BoardSupport.Text.Digits

/-! I²C lines and buses that only record. -/
namespace BoardSupport.Bench

/-- The token of a change of a line, or of a wait. -/
def lineToken : I2c.Pins.Request → String
  | .clock high => if high then "C1" else "C0"
  | .data high => if high then "D1" else "D0"
  | .delay ns => "N" ++ toString ns.toNat

def recordLines : Device I2c.Pins Empty Log := fun r log => .ok () (log.add (lineToken r))

inductive Refused
  | refused
  deriving DecidableEq, Repr

instance : Text.Describe Refused where
  describe
    | .refused => .bare "Refused"

/-- A bus that records what transactions write, and refuses some of them. -/
structure BusRecorder where
  /-- The transactions to refuse, counted from zero. -/
  refusals : List Nat := []
  count : Nat := 0
  log : Log := {}

/-- Records a transaction, and refuses it if its turn has come. -/
def BusRecorder.device : Device (I2c.Controller Refused) Empty BusRecorder := fun t b =>
  let bytes := Text.hexBytes t.written
  if b.count ∈ b.refusals then
    .ok (.error .refused) { b with count := b.count + 1, log := b.log.add ("!" ++ bytes) }
  else .ok (.ok ()) { b with count := b.count + 1, log := b.log.add bytes }

/-- A write-only bus of recorded lines. -/
def drivenBus (quarter : UInt32) : Device (I2c.Controller I2c.I2cError) (Halt Empty) Log :=
  Device.behind (I2c.BitBang.transaction quarter) recordLines

structure WriterState (p : Oled.Panel) (β : Type) where
  cursor : Oled.Cursor p
  bus : β

def writerDevice {ε ε' β : Type} (p : Oled.Panel) (bus : Device (I2c.Controller ε) ε' β) :
    Device (Oled.Writer ε p) ε' (WriterState p β)
  | .transfer t => fun s =>
    match bus t s.bus with
    | .ok answer b => .ok answer { s with bus := b }
    | .error e b => .error e { s with bus := b }
  | .cursor => fun s => .ok s.cursor s
  | .place c => fun s => .ok () { s with cursor := c }

end BoardSupport.Bench
