import BoardSupport.SdCard.Response
import BoardSupport.Spi.Channel

/-! The SD card in SPI mode. Every wait is a bounded number of polls; only the bring-up retries,
because cards take a while over it. -/
namespace BoardSupport.SdCard

open Spi

/-- A step of the driver, which may end in an error. -/
abbrev Session := ExceptT SdError (Program Channel)

def always {α : Type} (p : Program Channel α) : Session α := ExceptT.lift p

/-- The clock divider for bring-up, which keeps the SPI clock at 200 kHz. -/
def throttleInit : UInt8 := 124

/-- The clock divider for a card that is up: full speed. -/
def throttleRun : UInt8 := 0

/-- Sends a byte of idle clocks. -/
def pad : Program Channel Unit := Channel.write 0xFF

/-- Slows the clock down and gives the card the clocks it needs, unselected, before its first
command. -/
def powerUp : Program Channel Unit := do
  Channel.throttle throttleInit
  Channel.delay 1
  pad
  Channel.deselect
  pad
  (List.range 10).forM fun _ => pad

/-- The six bytes of a command. The check bits stand in the top of their byte, over the stop bit. -/
def commandBytes (index : UInt8) (argument : UInt32) (check : UInt8) : List UInt8 :=
  (0x40 ||| index) :: Word.toBigEndian argument ++ [check ||| 0x01]

def command (index : UInt8) (argument : UInt32) (check : UInt8) : Program Channel Unit :=
  Channel.writeAll (commandBytes index argument check)

/-- A status comes within nine bytes, the first that is not all ones. -/
def readR1 : Session R1 := ExceptT.mk do
  match ← Channel.readUntil (· != 0xFF) 9 with
  | some b => return .ok ⟨b⟩
  | none => return .error .timeout

/-- A status and the four bytes after it. -/
def readLong {α : Type} (f : R1 → UInt8 → UInt8 → UInt8 → UInt8 → α) : Session α := do
  let r1 ← readR1
  let b0 ← always Channel.read
  let b1 ← always Channel.read
  let b2 ← always Channel.read
  let b3 ← always Channel.read
  return f r1 b0 b1 b2 b3

/-- Runs a program with the card selected, and idle clocks on either side of both edges. -/
def whileSelected {α : Type} (body : Program Channel α) : Program Channel α := do
  pad
  Channel.select
  pad
  let result ← body
  pad
  Channel.deselect
  pad
  return result

/-- Runs a session with the card selected. The card is released however the session ends. -/
def framed {α : Type} (body : Session α) : Session α := ExceptT.mk (whileSelected body.run)

/-- Sends one command in a frame of its own and reads what `answer` expects. -/
def exchange {α : Type} (index : UInt8) (argument : UInt32) (check : UInt8) (answer : Session α) :
    Session α :=
  framed do
    always (command index argument check)
    answer

/-- Command 0: reset into SPI mode. -/
def goIdle : Session R1 := exchange 0 0 0x94 readR1

/-- Command 8: tells the card our voltage range. Only version 2 cards know it. -/
def sendInterfaceCondition : Session R7 := exchange 8 0x1AA 0x86 (readLong R7.ofBytes)

/-- Command 58: reads the operating conditions register. -/
def readOcr : Session (R1 × Ocr) :=
  exchange 58 0 0 (readLong fun r1 b0 b1 b2 b3 => (r1, ⟨Word.ofBigEndian b0 b1 b2 b3⟩))

/-- Command 55: the next command is specific to the application. -/
def announceSpecific : Session R1 := exchange 55 0 0 readR1

/-- Specific command 41: starts the card, and may tell it that we can address blocks. -/
def sendOperatingCondition (highCapacity : Bool) : Session R1 := do
  let r1 ← announceSpecific
  if r1.hasErrors then throw (.command 55 r1)
  exchange 41 (if highCapacity then 0x40000000 else 0) 0 readR1

/-- Starts the card, with at most `attempts` tries ten milliseconds apart. -/
def awaitReady (highCapacity : Bool) : (attempts : Nat) → Session Unit
  | 0 => throw .initTimeout
  | n + 1 => do
    let r1 ← sendOperatingCondition highCapacity
    if r1.isReady then return ()
    if r1.hasErrors then throw (.command 41 r1)
    always (Channel.delay 10)
    awaitReady highCapacity n

/-- What a started version 2 card can do, from its operating conditions. -/
def readCapacity : Session Kind := do
  let (r1, ocr) ← readOcr
  if r1.hasErrors then throw (.command 58 r1)
  if !ocr.isPoweredUp then throw .notPoweredUp
  return if ocr.isHighCapacity then .highCapacity else .version2

/-- Resets the card, settles on a voltage, starts it and finds out of what kind it is. -/
def identify : Session Kind := do
  let r1 ← goIdle
  if r1 ≠ ⟨R1.idleFlag⟩ then throw (.command 0 r1)
  let r7 ← sendInterfaceCondition
  let old := r7.r1.isIllegal
  if !old && !r7.isValid then throw (.interfaceCondition r7)
  awaitReady (!old) 100
  if old then return .version1 else readCapacity

def bringUp : Session Kind := do
  always powerUp
  let kind ← identify
  always (Channel.throttle throttleRun)
  return kind

/-- Where a block lies, in the units that the kind of card counts in. -/
def blockAddress (kind : Option Kind) (block : UInt32) : Except SdError UInt32 :=
  match kind with
  | none => .error .notInitialized
  | some .highCapacity => .ok block
  | some _ => if block.toNat * 512 < UInt32.size then .ok (block * 512) else .error (.addressOutOfRange block)

def expectReady (index : UInt8) : Session Unit := do
  let r1 ← readR1
  unless r1.isReady do throw (.command index r1)

def awaitData : Session Unit := ExceptT.mk do
  match ← Channel.readUntil (· != 0xFF) 4096 with
  | some 0xFE => return .ok ()
  | some token => return .error (.badToken token)
  | none => return .error .timeout

/-- The bytes of a block, in memory. -/
abbrev Block := Vector UInt8 512

/-- Command 17 to a card that is selected: reads the 512 bytes at an address into a buffer, which is not
touched before the card has data. The two check bytes after them are not looked at. -/
def fetchInto (address : UInt32) (buffer : Block) : Program Channel (Except SdError Unit × Block) := do
  command 17 address 0
  match ← (expectReady 17 >>= fun _ => awaitData).run with
  | .error e => return (.error e, buffer)
  | .ok () =>
    let filled ← Channel.fill buffer
    let _ ← Channel.readAll 2
    return (.ok (), filled)

/-- Reads a block into a buffer. -/
def readInto (kind : Option Kind) (block : UInt32) (buffer : Block) :
    Program Channel (Except SdError Unit × Block) :=
  match blockAddress kind block with
  | .error e => return (.error e, buffer)
  | .ok address => whileSelected (fetchInto address buffer)

def awaitAccepted : Session Unit := ExceptT.mk do
  match ← Channel.readUntil (· != 0xFF) 4096 with
  | some response => return if response &&& 0x1F = 0x05 then .ok () else .error (.writeRejected response)
  | none => return .error .timeout

/-- Waits while the card holds its line low to write. -/
def awaitWritten : Session Unit := ExceptT.mk do
  match ← Channel.readUntil (· != 0x00) 65536 with
  | some _ => return .ok ()
  | none => return .error .busyTimeout

/-- Command 24 to a card that is selected: gives it the bytes for an address and waits for it to
finish. -/
def deposit (address : UInt32) (data : List UInt8) : Session Unit := do
  always (command 24 address 0)
  expectReady 24
  always (Channel.writeAll ([0xFF, 0xFE] ++ data ++ [0xFF, 0xFF]))
  awaitAccepted
  awaitWritten

def writeBlock (kind : Option Kind) (block : UInt32) (data : List UInt8) : Session Unit := do
  let address ← ExceptT.mk (pure (blockAddress kind block))
  framed (deposit address data)

end SdCard

/-- A card as its driver knows it: of some kind once brought up. -/
structure SdCard where
  kind : Option SdCard.Kind
  deriving DecidableEq, Repr

namespace SdCard

def fresh : SdCard := ⟨none⟩

/-- Brings the card up. It counts as up only if that succeeds, whatever it was before. -/
def init (_ : SdCard) : Program Spi.Channel (Except SdError Kind × SdCard) := do
  let result ← bringUp.run
  return (result, ⟨result.toOption⟩)

end BoardSupport.SdCard
