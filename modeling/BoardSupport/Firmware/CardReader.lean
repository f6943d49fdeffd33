import BoardSupport.Firmware.Machine
import BoardSupport.PartitionTable
import BoardSupport.SdCard.Driver
import BoardSupport.Spi.Master
import BoardSupport.SpinDelay

/-! A program for an SD card: it brings the card up and lists its partitions. -/
namespace BoardSupport.Firmware.CardReader

open SdCard

variable (split : Delay.Splitting)

def master : Spi.Master := ⟨Platform.sdCardBase⟩

/-- Runs the card's driver on the SPI master. -/
def onCard {α : Type} (p : Program Spi.Channel α) : Program Bus α :=
  p.interpret (master.carry (SpinDelay.milliseconds split))

/-- Tells of an error, and of the flags that came with it. -/
def report (e : SdError) : Program Bus Unit := do
  uart.write ("SD card error: " ++ Text.debug e ++ "\n")
  if let .command _ r1 := e then
    r1.names.forM fun name => uart.write ("  " ++ name ++ "\n")

/-- Writes bytes in hex, sixteen to a line. -/
def dump (bytes : List UInt8) : Program Bus Unit :=
  (List.range (bytes.length / 16)).forM fun i => do
    ((bytes.drop (16 * i)).take 16).forM fun b => uart.write (Text.hexPadded 2 b.toNat ++ " ")
    uart.write "\n"

/-- What is told of a partition. -/
def partitionText (i : Nat) (p : Partition) : String :=
  "partition " ++ toString i ++ ": type " ++ Text.hexMarked p.kind.toNat ++
    (if p.isFat then " (FAT)" else "") ++ (if p.isBootable then " bootable" else "") ++ ", " ++
    toString p.blocks.toNat ++ " sectors from " ++ toString p.firstBlock.toNat ++ "\n"

def listPartitions (block : Block) : Program Bus Unit :=
  match PartitionTable.parse block with
  | .ok table => table.toList.zipIdx.forM fun (p, i) =>
    if p.isUsed then uart.write (partitionText i p) else return ()
  | .error e => uart.write ("no partition table: " ++ Text.debug e ++ "\n")

/-- What is done with a card that is up. -/
def examine (card : SdCard) : Program Bus Unit := do
  match ← onCard split readOcr.run with
  | .ok (r1, ocr) =>
    uart.write ("R1 " ++ Text.hexMarked r1.flags.toNat ++ ", OCR " ++ Text.hexMarked ocr.bits.toNat ++ "\n")
  | .error e => report e
  match ← onCard split (readInto card.kind 0 (Vector.replicate 512 0)) with
  | (.error e, _) => report e
  | (.ok (), block) =>
    dump (block.toList.take 64)
    listPartitions block

def demonstrate : Program Bus Unit := do
  uart.write "Starting Disk Initialisation!\n"
  let (result, card) ← onCard split SdCard.fresh.init
  match result with
  | .error e => report e
  | .ok kind =>
    uart.write ("Card ready: " ++ Text.debug kind ++ "\n")
    examine split card

def main (board : Board) : Program Machine Unit := do
  startup board "sdcard"
  Machine.onBus (demonstrate split)

end BoardSupport.Firmware.CardReader
