import BoardSupport.Bench.SpiScript
import Std.Data.HashMap

/-! A serial memory chip, whose address and data lines may be broken. -/
namespace BoardSupport.Bench

structure PsramChip where
  /-- The bits of an address that reach the cells. -/
  addressLines : Nat := 0x7FFFFF
  /-- The bits of a byte that reach the cells. -/
  dataLines : UInt8 := 0xFF
  cells : Std.HashMap Nat UInt8 := {}
  /-- The command and address bytes of the frame so far, at most four. -/
  header : List UInt8 := []
  cursor : Nat := 0
  /-- What is left to answer of the id. -/
  id : List UInt8 := []
  log : Log := {}

namespace PsramChip

def idBytes : List UInt8 := [0x0d, 0x5d, 0x52, 0x00, 0x11, 0x22, 0x33, 0x44]

/-- The cell that the cursor stands for. -/
def cell (chip : PsramChip) : Nat := chip.cursor &&& chip.addressLines

/-- Moves the cursor one byte on, around the end of memory. -/
def advance (chip : PsramChip) : PsramChip := { chip with cursor := (chip.cursor + 1) % 0x800000 }

def select (chip : PsramChip) : PsramChip := { chip with header := [] }

def write (chip : PsramChip) (byte : UInt8) : PsramChip :=
  match chip.header with
  | [command, high, middle] =>
    let address := high.toNat * 65536 + middle.toNat * 256 + byte.toNat
    { chip with header := [command, high, middle, byte], cursor := address % 0x800000, id := idBytes }
  | 0x02 :: _ :: _ :: _ :: _ =>
    let { addressLines, dataLines, cells, header, cursor, id, log } := chip
    advance ⟨addressLines, dataLines, cells.insert (cursor &&& addressLines) (byte &&& dataLines),
      header, cursor, id, log⟩
  | _ :: _ :: _ :: _ :: _ => chip
  | short => { chip with header := short ++ [byte] }

def read (chip : PsramChip) : UInt8 × PsramChip :=
  match chip.header with
  | 0x03 :: _ :: _ :: _ :: _ => (chip.cells.getD chip.cell 0, chip.advance)
  | 0x9F :: _ :: _ :: _ :: _ => (chip.id.headD 0xFF, { chip with id := chip.id.tail })
  | _ => (0xFF, chip)

/-- What a request does to the chip, leaving the log aside. -/
def answer : (r : Spi.Channel.Request) → PsramChip → Spi.Channel.Reply r × PsramChip
  | .select, chip => ((), chip.select)
  | .write byte, chip => ((), chip.write byte)
  | .read, chip => chip.read
  | .deselect, chip => ((), chip)
  | .throttle _, chip => ((), chip)
  | .delay _, chip => ((), chip)

/-- The byte that a reply carries, if any. -/
def replyByte : (r : Spi.Channel.Request) → Spi.Channel.Reply r → UInt8
  | .read, b => b
  | _, _ => 0

def device (logged : Bool) : Device Spi.Channel Empty PsramChip := fun r chip =>
  let (reply, chip) := answer r chip
  .ok reply (if logged then { chip with log := chip.log.add (spiToken r (replyByte r reply)) } else chip)

end PsramChip

end BoardSupport.Bench
